import ItemSchema.Registry

/-! The model: lookup tables built from a registry and then never changed.

Besides the tables of the registry, a model holds the relation ends that each
item gains as features, and the root and link items where they are synthesized.
-/

set_option autoImplicit false

namespace ItemSchema

/-- The kinds of declaration that own features. -/
inductive OwnerKind where
  | item
  | relation
  | enumeration
  deriving DecidableEq, Repr

def OwnerKind.word : OwnerKind → String
  | .item => "item"
  | .relation => "relation"
  | .enumeration => "enum"

def OwnerKind.ofWord? : String → Option OwnerKind
  | "item" => some .item
  | "relation" => some .relation
  | "enum" => some .enumeration
  | _ => none

/-- Anything that the type of an attribute can name. -/
inductive Classifier where
  | item (record : Item)
  | collection (record : CollectionType)
  | enumeration (record : Enumeration)
  | atomic (record : AtomicType)
  | map (record : MapType)
  deriving DecidableEq

namespace Classifier

def kind : Classifier → DeclarationKind
  | .item _ => .item
  | .collection _ => .collection
  | .enumeration _ => .enumeration
  | .atomic _ => .atomic
  | .map _ => .map

def name : Classifier → String
  | .item record => record.name
  | .collection record => record.name
  | .enumeration record => record.name
  | .atomic record => record.className
  | .map record => record.name

def origin? : Classifier → Option Origin
  | .item record => record.origin?
  | .collection record => record.origin
  | .enumeration record => record.origin?
  | .atomic record => record.origin
  | .map record => record.origin

end Classifier

/-- The number of the build that a model comes from. Its 64-bit counter is taken not to wrap. -/
abbrev Generation := Nat

def Generation.display (generation : Generation) : String := "gen#" ++ toString generation

structure Model where
  generation : Generation
  rootName : String
  linkName : String
  items : Table String Item := .empty
  enumerations : Table String Enumeration := .empty
  relations : Table String Relation := .empty
  collections : Table String CollectionType := .empty
  atomics : Table String AtomicType := .empty
  maps : Table String MapType := .empty
  -- the ends each item gains by being the type of the end on the opposite side
  references : Table String (List RelationEnd) := .empty
  deriving DecidableEq

namespace Model

/-- The model before any build, without even the root item. -/
def initial (settings : Settings) : Model :=
  { generation := 0, rootName := settings.rootName, linkName := settings.linkName }

/-- Add the root item, and the link item below it, unless they are declared. -/
def synthesize (root link : String) (items : Table String Item) : Table String Item :=
  (items.insertIfNew root { name := root, synthetic := true }).insertIfNew link
    { name := link, parent := some root, synthetic := true }

def addReference (references : Table String (List RelationEnd)) (reference : String × RelationEnd) :
    Table String (List RelationEnd) :=
  references.insert reference.1 ((references.find? reference.1).getD [] ++ [reference.2])

def indexReferences (relations : List Relation) : Table String (List RelationEnd) :=
  (relations.flatMap Relation.references).foldl addReference .empty

def build (settings : Settings) (registry : Registry) (generation : Generation) : Model where
  generation := generation
  rootName := settings.rootName
  linkName := settings.linkName
  items :=
    if settings.synthesize then synthesize settings.rootName settings.linkName registry.items
    else registry.items
  enumerations := registry.enumerations
  relations := registry.relations
  collections := registry.collections
  atomics := registry.atomics
  maps := registry.maps
  references := indexReferences registry.relations.values

/-- What a type name stands for: an item, a collection, an enumeration, an atomic type or a map. -/
def classifier? (model : Model) (name : String) : Option Classifier :=
  (model.items.find? name).map .item <|>
    (model.collections.find? name).map .collection <|>
    (model.enumerations.find? name).map .enumeration <|>
    (model.atomics.find? name).map .atomic <|>
    (model.maps.find? name).map .map

/-- The relation ends an item gains as features, not counting its ancestors. -/
def referencesOf (model : Model) (item : String) : List RelationEnd :=
  (model.references.find? item).getD []

/-- What kind of owner a name stands for: an item, a relation or an enumeration. -/
def ownerKind? (model : Model) (name : String) : Option OwnerKind :=
  if model.items.contains name then some .item
  else if model.relations.contains name then some .relation
  else if model.enumerations.contains name then some .enumeration
  else none

def itemsByName (model : Model) : List Item :=
  model.items.values.mergeSort fun first second => decide (first.name ≤ second.name)

end Model

end ItemSchema
