import ItemSchema.Declaration
import ItemSchema.Json.Record
import ItemSchema.Settings

/-! Declarations and the words of the settings as JSON values, read.

A declaration is a record with a tag that tells its kind: the member `kind` of an
object, or the first element of an array. Because the tag takes that name, the
kind of a collection can only be given in an array.
-/

set_option autoImplicit false

namespace ItemSchema

open Json (slots? fieldOr optional? string? bool? word32? list? word? partWord?)

/-- A span is an array of its two offsets. -/
def Span.ofJson? : Json → Option Span
  | .array [start, stop] => do Span.ofOffsets? (← word32? start) (← word32? stop)
  | _ => none

/-- An origin is a record of which no part may be left out. -/
def Origin.ofJson? (json : Json) : Option Origin :=
  match slots? ["file", "range"] json with
  | some [some file, some span] => do return ⟨⟨← word32? file⟩, ← Span.ofJson? span⟩
  | _ => none

def CustomProperty.ofJson? (json : Json) : Option CustomProperty :=
  match slots? ["name", "value"] json with
  | some [name, value] => do
      return ⟨← fieldOr "" string? name, ← fieldOr "" string? value⟩
  | _ => none

def Modifiers.ofJson? (json : Json) : Option Modifiers :=
  match slots? ["read", "write", "optional", "unique", "initial", "part_of", "search", "encrypted",
      "persistent"] json with
  | some [read, write, optional, unique, initial, partOf, search, encrypted, persistent] => do
      return {
        read := ← fieldOr true bool? read
        write := ← fieldOr true bool? write
        optional := ← fieldOr true bool? optional
        unique := ← fieldOr false bool? unique
        initial := ← fieldOr false bool? initial
        partOf := ← fieldOr false bool? partOf
        search := ← fieldOr true bool? search
        encrypted := ← fieldOr false bool? encrypted
        persistent := ← fieldOr true bool? persistent }
  | _ => none

def AttributeDeclaration.ofJson? (json : Json) : Option AttributeDeclaration :=
  match slots? ["name", "type_ref", "modifiers", "redeclare", "custom_properties", "origin"] json with
  | some [name, typeRef, modifiers, redeclare, customProperties, origin] => do
      return {
        name := ← fieldOr "" string? name
        typeRef := ← fieldOr none (optional? string?) typeRef
        modifiers := ← fieldOr {} Modifiers.ofJson? modifiers
        redeclare := ← fieldOr false bool? redeclare
        customProperties := ← fieldOr [] (list? CustomProperty.ofJson?) customProperties
        origin := ← fieldOr none (optional? Origin.ofJson?) origin }
  | _ => none

def Index.ofJson? (json : Json) : Option Index :=
  match slots? ["name", "keys", "unique", "replace", "remove", "origin"] json with
  | some [name, keys, unique, replace, remove, origin] => do
      return {
        name := ← fieldOr "" string? name
        keys := ← fieldOr [] (list? string?) keys
        unique := ← fieldOr false bool? unique
        replace := ← fieldOr false bool? replace
        remove := ← fieldOr false bool? remove
        origin := ← fieldOr none (optional? Origin.ofJson?) origin }
  | _ => none

def ItemFlags.ofJson? (json : Json) : Option ItemFlags :=
  match slots? ["is_abstract", "autocreate", "generate", "singleton", "jalo_only"] json with
  | some [isAbstract, autocreate, generate, singleton, jaloOnly] => do
      return {
        isAbstract := ← fieldOr false bool? isAbstract
        autocreate := ← fieldOr false bool? autocreate
        generate := ← fieldOr false bool? generate
        singleton := ← fieldOr false bool? singleton
        jaloOnly := ← fieldOr false bool? jaloOnly }
  | _ => none

def ItemDeclaration.ofJson? (json : Json) : Option ItemDeclaration :=
  match slots? ["name", "extends", "attributes", "custom_properties", "indexes", "flags", "origin"]
      json with
  | some [name, parent, attributes, customProperties, indexes, flags, origin] => do
      return {
        name := ← fieldOr "" string? name
        parent := ← fieldOr none (optional? string?) parent
        attributes := ← fieldOr [] (list? AttributeDeclaration.ofJson?) attributes
        customProperties := ← fieldOr [] (list? CustomProperty.ofJson?) customProperties
        indexes := ← fieldOr [] (list? Index.ofJson?) indexes
        flags := ← fieldOr {} ItemFlags.ofJson? flags
        origin := ← fieldOr none (optional? Origin.ofJson?) origin }
  | _ => none

def ValueDeclaration.ofJson? (json : Json) : Option ValueDeclaration :=
  match slots? ["code", "origin"] json with
  | some [code, origin] => do
      return ⟨← fieldOr "" string? code, ← fieldOr none (optional? Origin.ofJson?) origin⟩
  | _ => none

def EnumerationDeclaration.ofJson? (json : Json) : Option EnumerationDeclaration :=
  match slots? ["name", "values", "dynamic", "origin"] json with
  | some [name, values, dynamic, origin] => do
      return {
        name := ← fieldOr "" string? name
        values := ← fieldOr [] (list? ValueDeclaration.ofJson?) values
        dynamic := ← fieldOr false bool? dynamic
        origin := ← fieldOr none (optional? Origin.ofJson?) origin }
  | _ => none

def ParentPolicy.ofJson? (json : Json) : Option ParentPolicy :=
  (word? json).bind ParentPolicy.ofWord?

/-- A kind given by itself. -/
def CollectionKind.ofJson? (json : Json) : Option CollectionKind :=
  (word? json).bind CollectionKind.ofWord?

/-- A kind given in a declaration. -/
def CollectionKind.ofPart? (json : Json) : Option CollectionKind :=
  (partWord? json).bind CollectionKind.ofWord?

def Cardinality.ofPart? (json : Json) : Option Cardinality :=
  (partWord? json).bind Cardinality.ofWord?

def EndDeclaration.ofJson? (json : Json) : Option EndDeclaration :=
  match slots? ["qualifier", "type_name", "cardinality", "collection_kind", "navigable", "ordered",
      "origin"] json with
  | some [qualifier, typeName, cardinality, collectionKind, navigable, ordered, origin] => do
      return {
        qualifier := ← fieldOr none (optional? string?) qualifier
        typeName := ← fieldOr none (optional? string?) typeName
        cardinality := ← fieldOr .many Cardinality.ofPart? cardinality
        collectionKind := ← fieldOr .collection CollectionKind.ofPart? collectionKind
        navigable := ← fieldOr true bool? navigable
        ordered := ← fieldOr false bool? ordered
        origin := ← fieldOr none (optional? Origin.ofJson?) origin }
  | _ => none

def RelationDeclaration.ofJson? (json : Json) : Option RelationDeclaration :=
  match slots? ["name", "source", "target", "localized", "origin"] json with
  | some [name, source, target, localized, origin] => do
      return {
        name := ← fieldOr "" string? name
        source := ← fieldOr {} EndDeclaration.ofJson? source
        target := ← fieldOr {} EndDeclaration.ofJson? target
        localized := ← fieldOr false bool? localized
        origin := ← fieldOr none (optional? Origin.ofJson?) origin }
  | _ => none

def CollectionType.ofJson? (json : Json) : Option CollectionType :=
  match slots? ["name", "element_type", "kind", "origin"] json with
  | some [name, elementType, kind, origin] => do
      return {
        name := ← fieldOr "" string? name
        elementType := ← fieldOr none (optional? string?) elementType
        kind := ← fieldOr .collection CollectionKind.ofPart? kind
        origin := ← fieldOr none (optional? Origin.ofJson?) origin }
  | _ => none

def AtomicType.ofJson? (json : Json) : Option AtomicType :=
  match slots? ["class_name", "extends", "origin"] json with
  | some [className, parent, origin] => do
      return {
        className := ← fieldOr "" string? className
        parent := ← fieldOr none (optional? string?) parent
        origin := ← fieldOr none (optional? Origin.ofJson?) origin }
  | _ => none

def MapType.ofJson? (json : Json) : Option MapType :=
  match slots? ["name", "argument_type", "return_type", "origin"] json with
  | some [name, argumentType, returnType, origin] => do
      return {
        name := ← fieldOr "" string? name
        argumentType := ← fieldOr none (optional? string?) argumentType
        returnType := ← fieldOr none (optional? string?) returnType
        origin := ← fieldOr none (optional? Origin.ofJson?) origin }
  | _ => none

/-- The tag of a declaration and the record without it. -/
def Json.untag? : Json → Option (Json × Json)
  | .object members =>
      (lastMember? "kind" members).map fun tag => (tag, .object (members.filter (·.1 ≠ "kind")))
  | .array (tag :: elements) => some (tag, .array elements)
  | _ => none

/-- The declaration of a kind that a record stands for. -/
def Declaration.ofRecord? (json : Json) : DeclarationKind → Option Declaration
  | .item => (ItemDeclaration.ofJson? json).map .item
  | .enumeration => (EnumerationDeclaration.ofJson? json).map .enumeration
  | .relation => (RelationDeclaration.ofJson? json).map .relation
  | .collection => (CollectionType.ofJson? json).map .collection
  | .atomic => (AtomicType.ofJson? json).map .atomic
  | .map => (MapType.ofJson? json).map .map

def Declaration.ofJson? (json : Json) : Option Declaration := do
  let (tag, record) ← json.untag?
  Declaration.ofRecord? record (← DeclarationKind.ofWord? (← string? tag))

end ItemSchema
