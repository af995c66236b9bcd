import ItemSchema.Declaration
import ItemSchema.Json.Value

/-! Declarations as JSON values, written.

Every declaration is an object with its tag first and then all of its fields,
also those that have their default. A collection has its own kind as a second
member of the tag's name.
-/

set_option autoImplicit false

namespace ItemSchema

open Json (bool integer string array object null)

def Json.ofOption {α : Type} (encode : α → Json) : Option α → Json
  | none => null
  | some value => encode value

open Json (ofOption)

def Span.toJson (span : Span) : Json :=
  array [integer span.start.toNat, integer span.stop.toNat]

def Origin.toJson (origin : Origin) : Json :=
  object [("file", integer origin.file.index.toNat), ("range", origin.span.toJson)]

def CustomProperty.toJson (property : CustomProperty) : Json :=
  object [("name", string property.name), ("value", string property.value)]

def Modifiers.toJson (modifiers : Modifiers) : Json :=
  object [
    ("read", bool modifiers.read),
    ("write", bool modifiers.write),
    ("optional", bool modifiers.optional),
    ("unique", bool modifiers.unique),
    ("initial", bool modifiers.initial),
    ("part_of", bool modifiers.partOf),
    ("search", bool modifiers.search),
    ("encrypted", bool modifiers.encrypted),
    ("persistent", bool modifiers.persistent)]

def AttributeDeclaration.toJson (declaration : AttributeDeclaration) : Json :=
  object [
    ("name", string declaration.name),
    ("type_ref", ofOption string declaration.typeRef),
    ("modifiers", declaration.modifiers.toJson),
    ("redeclare", bool declaration.redeclare),
    ("custom_properties", array (declaration.customProperties.map CustomProperty.toJson)),
    ("origin", ofOption Origin.toJson declaration.origin)]

def Index.toJson (index : Index) : Json :=
  object [
    ("name", string index.name),
    ("keys", array (index.keys.map string)),
    ("unique", bool index.unique),
    ("replace", bool index.replace),
    ("remove", bool index.remove),
    ("origin", ofOption Origin.toJson index.origin)]

def ItemFlags.toJson (flags : ItemFlags) : Json :=
  object [
    ("is_abstract", bool flags.isAbstract),
    ("autocreate", bool flags.autocreate),
    ("generate", bool flags.generate),
    ("singleton", bool flags.singleton),
    ("jalo_only", bool flags.jaloOnly)]

def ItemDeclaration.members (declaration : ItemDeclaration) : List (String × Json) := [
  ("name", string declaration.name),
  ("extends", ofOption string declaration.parent),
  ("attributes", array (declaration.attributes.map AttributeDeclaration.toJson)),
  ("custom_properties", array (declaration.customProperties.map CustomProperty.toJson)),
  ("indexes", array (declaration.indexes.map Index.toJson)),
  ("flags", declaration.flags.toJson),
  ("origin", ofOption Origin.toJson declaration.origin)]

def ValueDeclaration.toJson (value : ValueDeclaration) : Json :=
  object [("code", string value.code), ("origin", ofOption Origin.toJson value.origin)]

def EnumerationDeclaration.members (declaration : EnumerationDeclaration) : List (String × Json) := [
  ("name", string declaration.name),
  ("values", array (declaration.values.map ValueDeclaration.toJson)),
  ("dynamic", bool declaration.dynamic),
  ("origin", ofOption Origin.toJson declaration.origin)]

def EndDeclaration.toJson (declaration : EndDeclaration) : Json :=
  object [
    ("qualifier", ofOption string declaration.qualifier),
    ("type_name", ofOption string declaration.typeName),
    ("cardinality", string declaration.cardinality.word),
    ("collection_kind", string declaration.collectionKind.word),
    ("navigable", bool declaration.navigable),
    ("ordered", bool declaration.ordered),
    ("origin", ofOption Origin.toJson declaration.origin)]

def RelationDeclaration.members (declaration : RelationDeclaration) : List (String × Json) := [
  ("name", string declaration.name),
  ("source", declaration.source.toJson),
  ("target", declaration.target.toJson),
  ("localized", bool declaration.localized),
  ("origin", ofOption Origin.toJson declaration.origin)]

def CollectionType.members (declaration : CollectionType) : List (String × Json) := [
  ("name", string declaration.name),
  ("element_type", ofOption string declaration.elementType),
  ("kind", string declaration.kind.word),
  ("origin", ofOption Origin.toJson declaration.origin)]

def AtomicType.members (declaration : AtomicType) : List (String × Json) := [
  ("class_name", string declaration.className),
  ("extends", ofOption string declaration.parent),
  ("origin", ofOption Origin.toJson declaration.origin)]

def MapType.members (declaration : MapType) : List (String × Json) := [
  ("name", string declaration.name),
  ("argument_type", ofOption string declaration.argumentType),
  ("return_type", ofOption string declaration.returnType),
  ("origin", ofOption Origin.toJson declaration.origin)]

/-- The fields of a declaration in order, without its tag. -/
def Declaration.members : Declaration → List (String × Json)
  | .item declaration => declaration.members
  | .enumeration declaration => declaration.members
  | .relation declaration => declaration.members
  | .collection declaration => declaration.members
  | .atomic declaration => declaration.members
  | .map declaration => declaration.members

def Declaration.toJson (declaration : Declaration) : Json :=
  object (("kind", string declaration.kind.word) :: declaration.members)

end ItemSchema
