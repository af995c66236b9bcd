import ItemSchema.Declaration

/-! The registry: one merged record for each name and kind of declaration.

Declarations are merged one at a time, in order. A disagreement never stops a
merge; it is recorded as a conflict with the origin of the declaration that
brought it up.
-/

set_option autoImplicit false

namespace ItemSchema

/-- What two declarations of one name disagree on. -/
inductive Disagreement where
  | parent (clash : ParentClash)
  | relation
  | atomic
  | map
  deriving DecidableEq, Repr

structure Conflict where
  kind : DeclarationKind
  name : String
  disagreement : Disagreement
  origin : Option Origin
  deriving DecidableEq

def Conflict.message (conflict : Conflict) : String :=
  match conflict.disagreement with
  | .parent clash =>
      conflict.kind.word ++ " '" ++ conflict.name ++ "' extends '" ++ clash.kept ++
        "' but is redeclared extending '" ++ clash.ignored ++ "'"
  | .relation => "relation '" ++ conflict.name ++ "' is declared more than once"
  | .atomic => "atomic type '" ++ conflict.name ++ "' is redeclared with a different parent"
  | .map => "map type '" ++ conflict.name ++ "' is redeclared with different key or value types"

structure Registry where
  parentPolicy : ParentPolicy := .firstWins
  items : Table String Item := .empty
  enumerations : Table String Enumeration := .empty
  relations : Table String Relation := .empty
  collections : Table String CollectionType := .empty
  atomics : Table String AtomicType := .empty
  maps : Table String MapType := .empty
  -- the conflicts met so far, in order
  conflicts : List Conflict := []
  deriving DecidableEq

namespace Registry

def ofSettings (settings : Settings) : Registry := { parentPolicy := settings.parentPolicy }

/-- Note a disagreement that a declaration brought up, if it did. -/
def note (registry : Registry) (declaration : Declaration) (disagreement : Option Disagreement) :
    Registry :=
  { registry with
    conflicts := registry.conflicts ++ disagreement.toList.map fun disagreement =>
      { kind := declaration.kind
        name := declaration.name
        disagreement
        origin := declaration.origin } }

def mergeItem (registry : Registry) (declaration : ItemDeclaration) : Registry :=
  let known := (registry.items.find? declaration.name).getD { name := declaration.name }
  let (merged, clash) := known.merge registry.parentPolicy declaration
  { registry with items := registry.items.insert declaration.name merged }.note
    (.item declaration) (clash.map .parent)

def mergeEnumeration (registry : Registry) (declaration : EnumerationDeclaration) : Registry :=
  let known := (registry.enumerations.find? declaration.name).getD { name := declaration.name }
  { registry with
    enumerations := registry.enumerations.insert declaration.name (known.merge declaration) }

def mergeRelation (registry : Registry) (declaration : RelationDeclaration) : Registry :=
  if registry.relations.contains declaration.name then
    registry.note (.relation declaration) (some .relation)
  else
    { registry with
      relations := registry.relations.insert declaration.name (.ofDeclaration declaration) }

def mergeCollection (registry : Registry) (declaration : CollectionType) : Registry :=
  { registry with collections := registry.collections.insert declaration.name declaration }

def mergeAtomic (registry : Registry) (declaration : AtomicType) : Registry :=
  match registry.atomics.find? declaration.className with
  | some known =>
      if known.parent = declaration.parent then registry
      else registry.note (.atomic declaration) (some .atomic)
  | none =>
      { registry with atomics := registry.atomics.insert declaration.className declaration }

def mergeMap (registry : Registry) (declaration : MapType) : Registry :=
  let known := (registry.maps.find? declaration.name).getD { name := declaration.name }
  { registry with maps := registry.maps.insert declaration.name (known.fill declaration) }.note
    (.map declaration) (if known.clashes declaration then some .map else none)

/-- Merge a declaration under its name, whatever the name is. -/
def merge (registry : Registry) : Declaration → Registry
  | .item declaration => registry.mergeItem declaration
  | .enumeration declaration => registry.mergeEnumeration declaration
  | .relation declaration => registry.mergeRelation declaration
  | .collection declaration => registry.mergeCollection declaration
  | .atomic declaration => registry.mergeAtomic declaration
  | .map declaration => registry.mergeMap declaration

def register (registry : Registry) (declaration : Declaration) : Except BlankName Registry :=
  match declaration.rejection? with
  | some error => .error error
  | none => .ok (registry.merge declaration)

/-- Merge the declarations that are not rejected, in order, and tell which ones were. -/
def registerAll (registry : Registry) : List Declaration → Registry × List BlankName
  | [] => (registry, [])
  | declaration :: rest =>
      match registry.register declaration with
      | .ok merged => merged.registerAll rest
      | .error error =>
          let (merged, errors) := registry.registerAll rest
          (merged, error :: errors)

def size (registry : Registry) : Nat :=
  registry.items.size + registry.enumerations.size + registry.relations.size +
    registry.collections.size + registry.atomics.size + registry.maps.size

def clear (registry : Registry) : Registry := { parentPolicy := registry.parentPolicy }

end Registry

end ItemSchema
