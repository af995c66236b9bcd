import ItemSchema.Origin
import ItemSchema.Text.Blank
import ItemSchema.Text.Casing

/-! Relations between two items, and their ends. -/

set_option autoImplicit false

namespace ItemSchema

/-- How many items one end of a relation holds. -/
inductive Cardinality where
  | one
  | many
  deriving DecidableEq, Repr

def Cardinality.word : Cardinality → String
  | .one => "one"
  | .many => "many"

def Cardinality.ofWord? : String → Option Cardinality
  | "one" => some .one
  | "many" => some .many
  | _ => none

/-- The container shape of a relation end with many items, or of a collection type. -/
inductive CollectionKind where
  | collection
  | list
  | set
  deriving DecidableEq, Repr

def CollectionKind.word : CollectionKind → String
  | .collection => "collection"
  | .list => "list"
  | .set => "set"

def CollectionKind.ofWord? : String → Option CollectionKind
  | "collection" => some .collection
  | "list" => some .list
  | "set" => some .set
  | _ => none

structure EndDeclaration where
  -- the role name under which the other side knows this end
  qualifier : Option String := none
  typeName : Option String := none
  cardinality : Cardinality := .many
  collectionKind : CollectionKind := .collection
  navigable : Bool := true
  ordered : Bool := false
  origin : Option Origin := none
  deriving DecidableEq

namespace EndDeclaration

def role (qualifier typeName : String) : EndDeclaration :=
  { qualifier := some qualifier, typeName := some typeName }

def one (declaration : EndDeclaration) : EndDeclaration :=
  { declaration with cardinality := .one }

def many (declaration : EndDeclaration) (kind : CollectionKind) : EndDeclaration :=
  { declaration with cardinality := .many, collectionKind := kind }

def notNavigable (declaration : EndDeclaration) : EndDeclaration :=
  { declaration with navigable := false }

def inOrder (declaration : EndDeclaration) : EndDeclaration :=
  { declaration with ordered := true }

def locatedAt (declaration : EndDeclaration) (origin : Origin) : EndDeclaration :=
  { declaration with origin := some origin }

end EndDeclaration

structure RelationDeclaration where
  name : String := ""
  source : EndDeclaration := {}
  target : EndDeclaration := {}
  localized : Bool := false
  origin : Option Origin := none
  deriving DecidableEq

def RelationDeclaration.locatedAt (declaration : RelationDeclaration) (origin : Origin) :
    RelationDeclaration :=
  { declaration with origin := some origin }

inductive Side where
  | source
  | target
  deriving DecidableEq, Repr

def Side.opposite : Side → Side
  | .source => .target
  | .target => .source

def Side.word : Side → String
  | .source => "source"
  | .target => "target"

/-- One end of a relation; blank roles and type names are left out. -/
structure RelationEnd where
  relation : String
  side : Side
  qualifier : Option String
  typeName : Option String
  cardinality : Cardinality
  collectionKind : CollectionKind
  navigable : Bool
  ordered : Bool
  origin : Option Origin
  deriving DecidableEq

namespace RelationEnd

def ofDeclaration (relation : String) (side : Side) (declaration : EndDeclaration) : RelationEnd where
  relation := relation
  side := side
  qualifier := declaration.qualifier.bind Text.nonBlank?
  typeName := declaration.typeName.bind Text.nonBlank?
  cardinality := declaration.cardinality
  collectionKind := declaration.collectionKind
  navigable := declaration.navigable
  ordered := declaration.ordered
  origin := declaration.origin

/-- Whether the end plays a role, in any case of its letters. -/
def playsRole (relationEnd : RelationEnd) (role : String) : Bool :=
  relationEnd.qualifier.any fun qualifier => Text.equalsIgnoringCase qualifier role

/-- Only an end with a type and a role can be a feature. -/
def isWellFormed (relationEnd : RelationEnd) : Bool :=
  relationEnd.typeName.isSome && relationEnd.qualifier.isSome

end RelationEnd

structure Relation where
  name : String
  source : RelationEnd
  target : RelationEnd
  localized : Bool
  origin : Option Origin
  deriving DecidableEq

namespace Relation

def ofDeclaration (declaration : RelationDeclaration) : Relation where
  name := declaration.name
  source := .ofDeclaration declaration.name .source declaration.source
  target := .ofDeclaration declaration.name .target declaration.target
  localized := declaration.localized
  origin := declaration.origin

def atSide (relation : Relation) : Side → RelationEnd
  | .source => relation.source
  | .target => relation.target

/-- An end that can be navigated, with the name of the item that gains it as a feature:
the type of the end on the opposite side. -/
def referenceAt? (relation : Relation) (side : Side) : Option (String × RelationEnd) :=
  let relationEnd := relation.atSide side
  if relationEnd.navigable && relationEnd.isWellFormed then
    (relation.atSide side.opposite).typeName.map fun owner => (owner, relationEnd)
  else none

/-- The features the relation adds to items, source end first. -/
def references (relation : Relation) : List (String × RelationEnd) :=
  [Side.source, Side.target].filterMap relation.referenceAt?

end Relation

end ItemSchema
