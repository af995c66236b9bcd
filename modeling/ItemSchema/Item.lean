import ItemSchema.Attribute
import ItemSchema.Index
import ItemSchema.Settings

/-! Item types: their partial declarations and the record that these merge into.

An item may be declared many times, each time with a part of its features.
Flags accumulate, attributes and properties are overwritten name by name, and a
parent once named is never cleared.
-/

set_option autoImplicit false

namespace ItemSchema

structure ItemFlags where
  isAbstract : Bool := false
  autocreate : Bool := false
  generate : Bool := false
  singleton : Bool := false
  jaloOnly : Bool := false
  deriving DecidableEq, Repr

/-- The flags set on either side. -/
def ItemFlags.union (first second : ItemFlags) : ItemFlags where
  isAbstract := first.isAbstract || second.isAbstract
  autocreate := first.autocreate || second.autocreate
  generate := first.generate || second.generate
  singleton := first.singleton || second.singleton
  jaloOnly := first.jaloOnly || second.jaloOnly

structure ItemDeclaration where
  name : String := ""
  parent : Option String := none
  attributes : List AttributeDeclaration := []
  customProperties : List CustomProperty := []
  indexes : List Index := []
  flags : ItemFlags := {}
  origin : Option Origin := none
  deriving DecidableEq

namespace ItemDeclaration

def extending (declaration : ItemDeclaration) (parent : String) : ItemDeclaration :=
  { declaration with parent := some parent }

def withAttribute (declaration : ItemDeclaration) (added : AttributeDeclaration) : ItemDeclaration :=
  { declaration with attributes := declaration.attributes ++ [added] }

def withTyped (declaration : ItemDeclaration) (name typeRef : String) : ItemDeclaration :=
  declaration.withAttribute { name, typeRef := some typeRef }

def withProperty (declaration : ItemDeclaration) (name value : String) : ItemDeclaration :=
  { declaration with customProperties := declaration.customProperties ++ [⟨name, value⟩] }

def withIndex (declaration : ItemDeclaration) (index : Index) : ItemDeclaration :=
  { declaration with indexes := declaration.indexes ++ [index] }

def asAbstract (declaration : ItemDeclaration) : ItemDeclaration :=
  { declaration with flags := { declaration.flags with isAbstract := true } }

def withFlags (declaration : ItemDeclaration) (flags : ItemFlags) : ItemDeclaration :=
  { declaration with flags }

def addingFlags (declaration : ItemDeclaration) (flags : ItemFlags) : ItemDeclaration :=
  { declaration with flags := declaration.flags.union flags }

def locatedAt (declaration : ItemDeclaration) (origin : Origin) : ItemDeclaration :=
  { declaration with origin := some origin }

/-- The parent a declaration names; a blank one counts as none. -/
def parent? (declaration : ItemDeclaration) : Option String :=
  declaration.parent.bind Text.nonBlank?

end ItemDeclaration

/-- An item type merged from all of its declarations. -/
structure Item where
  name : String
  -- the parent named by a declaration; without one the root item is the parent
  parent : Option String := none
  attributes : Table String Attribute := .empty
  customProperties : Table String String := .empty
  indexes : Table String Index := .empty
  flags : ItemFlags := {}
  -- the known origins of the declarations, in order
  declarations : List Origin := []
  -- whether the model added the item because no declaration did
  synthetic : Bool := false
  deriving DecidableEq

/-- Two parents named for one item: the one it keeps and the one it does not. -/
structure ParentClash where
  kept : String
  ignored : String
  deriving DecidableEq, Repr

def ParentPolicy.choose (policy : ParentPolicy) (current incoming : String) : ParentClash :=
  match policy with
  | .firstWins => ⟨current, incoming⟩
  | .lastWins => ⟨incoming, current⟩

/-- The parent after a declaration, and the clash if both sides name different ones. -/
def ParentPolicy.merge (policy : ParentPolicy) :
    Option String → Option String → Option String × Option ParentClash
  | current, none => (current, none)
  | none, some incoming => (some incoming, none)
  | some current, some incoming =>
      if current = incoming then (some current, none)
      else
        let clash := policy.choose current incoming
        (some clash.kept, some clash)

namespace Item

/-- Everything of a declaration but its parent, merged into the record. -/
def absorb (item : Item) (declaration : ItemDeclaration) : Item :=
  { item with
    flags := item.flags.union declaration.flags
    synthetic := false
    declarations := item.declarations ++ declaration.origin.toList
    attributes := item.attributes.insertAll
      ((declaration.attributes.filterMap (Attribute.ofDeclaration? item.name)).map
        fun built => (built.name, built))
    customProperties := item.customProperties.insertAll
      (declaration.customProperties.filterMap CustomProperty.entry?)
    indexes := (declaration.indexes.filterMap Index.named?).foldl Index.mergeInto item.indexes }

/-- A declaration merged into the record, and the clash of parents it causes, if any. -/
def merge (policy : ParentPolicy) (item : Item) (declaration : ItemDeclaration) :
    Item × Option ParentClash :=
  let (parent, clash) := policy.merge item.parent declaration.parent?
  ({ item with parent }.absorb declaration, clash)

def ownAttribute? (item : Item) (name : String) : Option Attribute := item.attributes.find? name

def origin? (item : Item) : Option Origin := item.declarations.head?

/-- The name of the next item up: the named parent, else the root, which itself has none. -/
def parentName? (item : Item) (root : String) : Option String :=
  match item.parent with
  | some parent => some parent
  | none => if item.name = root then none else some root

end Item

end ItemSchema
