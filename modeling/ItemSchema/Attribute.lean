import ItemSchema.Origin
import ItemSchema.Table
import ItemSchema.Text.Blank

/-! Attributes of items, with the free-form properties they share with items. -/

set_option autoImplicit false

namespace ItemSchema

/-- A free-form property on an item or an attribute. -/
structure CustomProperty where
  name : String := ""
  value : String := ""
  deriving DecidableEq, Repr

/-- The property under its trimmed name, unless the name is blank. -/
def CustomProperty.entry? (property : CustomProperty) : Option (String × String) :=
  (Text.trimmed? property.name).map fun name => (name, property.value)

structure Modifiers where
  read : Bool := true
  write : Bool := true
  optional : Bool := true
  unique : Bool := false
  initial : Bool := false
  partOf : Bool := false
  search : Bool := true
  encrypted : Bool := false
  persistent : Bool := true
  deriving DecidableEq, Repr

def Modifiers.isReadOnly (modifiers : Modifiers) : Bool := modifiers.read && !modifiers.write

structure AttributeDeclaration where
  name : String := ""
  typeRef : Option String := none
  modifiers : Modifiers := {}
  redeclare : Bool := false
  customProperties : List CustomProperty := []
  origin : Option Origin := none
  deriving DecidableEq

namespace AttributeDeclaration

def typed (declaration : AttributeDeclaration) (typeRef : String) : AttributeDeclaration :=
  { declaration with typeRef := some typeRef }

def withModifiers (declaration : AttributeDeclaration) (modifiers : Modifiers) : AttributeDeclaration :=
  { declaration with modifiers }

def redeclared (declaration : AttributeDeclaration) : AttributeDeclaration :=
  { declaration with redeclare := true }

def withProperty (declaration : AttributeDeclaration) (name value : String) : AttributeDeclaration :=
  { declaration with customProperties := declaration.customProperties ++ [⟨name, value⟩] }

def locatedAt (declaration : AttributeDeclaration) (origin : Origin) : AttributeDeclaration :=
  { declaration with origin := some origin }

end AttributeDeclaration

/-- An attribute as it was last declared on an item. -/
structure Attribute where
  name : String
  declaringItem : String
  typeRef : Option String
  modifiers : Modifiers
  redeclare : Bool
  customProperties : Table String String
  origin : Option Origin
  deriving DecidableEq

/-- The attribute that a declaration puts on an item; there is none under a blank name. -/
def Attribute.ofDeclaration? (item : String) (declaration : AttributeDeclaration) : Option Attribute :=
  (Text.trimmed? declaration.name).map fun name =>
    { name
      declaringItem := item
      typeRef := declaration.typeRef.bind Text.nonBlank?
      modifiers := declaration.modifiers
      redeclare := declaration.redeclare
      customProperties := Table.empty.insertAll (declaration.customProperties.filterMap CustomProperty.entry?)
      origin := declaration.origin }

end ItemSchema
