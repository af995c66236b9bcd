import ItemSchema.Enumeration
import ItemSchema.Item
import ItemSchema.ValueType

/-! Declarations of all kinds, and the one reason to reject one. -/

set_option autoImplicit false

namespace ItemSchema

inductive DeclarationKind where
  | item
  | enumeration
  | relation
  | collection
  | atomic
  | map
  deriving DecidableEq, Repr

def DeclarationKind.word : DeclarationKind → String
  | .item => "item"
  | .enumeration => "enum"
  | .relation => "relation"
  | .collection => "collection"
  | .atomic => "atomic"
  | .map => "map"

def DeclarationKind.ofWord? : String → Option DeclarationKind
  | "item" => some .item
  | "enum" => some .enumeration
  | "relation" => some .relation
  | "collection" => some .collection
  | "atomic" => some .atomic
  | "map" => some .map
  | _ => none

inductive Declaration where
  | item (declaration : ItemDeclaration)
  | enumeration (declaration : EnumerationDeclaration)
  | relation (declaration : RelationDeclaration)
  | collection (declaration : CollectionType)
  | atomic (declaration : AtomicType)
  | map (declaration : MapType)
  deriving DecidableEq

/-- A declaration was rejected because nothing can be found under its name. -/
structure BlankName where
  kind : DeclarationKind
  origin : Option Origin
  deriving DecidableEq

def BlankName.message (error : BlankName) : String :=
  error.kind.word ++ " declaration has a blank name"

namespace Declaration

def kind : Declaration → DeclarationKind
  | .item _ => .item
  | .enumeration _ => .enumeration
  | .relation _ => .relation
  | .collection _ => .collection
  | .atomic _ => .atomic
  | .map _ => .map

def name : Declaration → String
  | .item declaration => declaration.name
  | .enumeration declaration => declaration.name
  | .relation declaration => declaration.name
  | .collection declaration => declaration.name
  | .atomic declaration => declaration.className
  | .map declaration => declaration.name

def origin : Declaration → Option Origin
  | .item declaration => declaration.origin
  | .enumeration declaration => declaration.origin
  | .relation declaration => declaration.origin
  | .collection declaration => declaration.origin
  | .atomic declaration => declaration.origin
  | .map declaration => declaration.origin

def rejection? (declaration : Declaration) : Option BlankName :=
  if Text.isBlank declaration.name then some ⟨declaration.kind, declaration.origin⟩ else none

def isAccepted (declaration : Declaration) : Bool := declaration.rejection?.isNone

end Declaration

end ItemSchema
