import ItemSchema.Proofs.Exchange.RecordSpelling
import ItemSchema.Proofs.Json.Depth

/-! All spellings of a declaration are loaded as that declaration.

What may be written for a record is told by the list of its fields, in declared
order and with the default record to compare with; each record is then read as its
decoder goes through them. A declaration adds its tag, and only there can a field
get in the way: the kind of a collection has the tag's name, which is harmless as
long as it is also the tag's word.
-/

set_option autoImplicit false

namespace ItemSchema

open Json (FieldRule Spelling valuesUnder)
open Json.Spelling (Plain Nullable Elementwise Record describes_plain describes_string describes_bool
  describes_optionalString)

def Origin.fields : List (FieldRule Origin) := [
  .required "file" (·.file) (Plain fun file => .integer file.index.toNat),
  .required "range" (·.span) (Plain Span.toJson)]

def Origin.Spelled : Spelling Origin := Record Origin.fields

theorem Origin.describes : Origin.Spelled.Describes Origin.toJson Origin.ofJson? where
  written origin := by
    refine Record.of_listed (by decide) rfl ?_
    exact .written rfl <| .written rfl <| .ended nofun
  read {origin json} spelled := by
    obtain ⟨slots, read, fits⟩ := spelled.exists_slots
    obtain _ | ⟨file, _ | ⟨span, ⟨⟩⟩⟩ := fits
    obtain ⟨_, rfl, rfl⟩ := file.exists_written
    obtain ⟨_, rfl, rfl⟩ := span.exists_written
    simp only [fields, List.map, FieldRule.name_required] at read
    simp [ofJson?, read]

theorem describes_optionalOrigin :
    (Nullable Origin.Spelled).Describes (.ofOption Origin.toJson) (Json.optional? Origin.ofJson?) :=
  Origin.describes.nullable rfl

def CustomProperty.fields : List (FieldRule CustomProperty) := [
  .part {} "name" (·.name) (Plain .string),
  .part {} "value" (·.value) (Plain .string)]

def CustomProperty.Spelled : Spelling CustomProperty := Record CustomProperty.fields

theorem CustomProperty.describes :
    CustomProperty.Spelled.Describes CustomProperty.toJson CustomProperty.ofJson? where
  written property := by
    refine Record.of_listed (by decide) rfl ?_
    exact .written (describes_string.written _) <| .written (describes_string.written _) <|
      .ended nofun
  read {property json} spelled := by
    obtain ⟨slots, read, fits⟩ := spelled.exists_slots
    obtain _ | ⟨name, _ | ⟨value, ⟨⟩⟩⟩ := fits
    simp only [fields, List.map, FieldRule.name_part] at read
    simp only [ofJson?, read]
    -- what the decoder puts into an empty slot agrees with the default record by definition
    exact name.bind describes_string <| value.bind describes_string rfl

def Modifiers.fields : List (FieldRule Modifiers) := [
  .part {} "read" (·.read) (Plain .bool),
  .part {} "write" (·.write) (Plain .bool),
  .part {} "optional" (·.optional) (Plain .bool),
  .part {} "unique" (·.unique) (Plain .bool),
  .part {} "initial" (·.initial) (Plain .bool),
  .part {} "part_of" (·.partOf) (Plain .bool),
  .part {} "search" (·.search) (Plain .bool),
  .part {} "encrypted" (·.encrypted) (Plain .bool),
  .part {} "persistent" (·.persistent) (Plain .bool)]

def Modifiers.Spelled : Spelling Modifiers := Record Modifiers.fields

theorem Modifiers.describes : Modifiers.Spelled.Describes Modifiers.toJson Modifiers.ofJson? where
  written modifiers := by
    refine Record.of_listed (by decide) rfl ?_
    exact .written (describes_bool.written _) <| .written (describes_bool.written _) <|
      .written (describes_bool.written _) <| .written (describes_bool.written _) <|
      .written (describes_bool.written _) <| .written (describes_bool.written _) <|
      .written (describes_bool.written _) <| .written (describes_bool.written _) <|
      .written (describes_bool.written _) <| .ended nofun
  read {modifiers json} spelled := by
    obtain ⟨slots, read, fits⟩ := spelled.exists_slots
    obtain _ | ⟨first, _ | ⟨write, _ | ⟨optional, _ | ⟨unique, _ | ⟨initial, _ | ⟨partOf,
      _ | ⟨search, _ | ⟨encrypted, _ | ⟨persistent, ⟨⟩⟩⟩⟩⟩⟩⟩⟩⟩⟩ := fits
    simp only [fields, List.map, FieldRule.name_part] at read
    simp only [ofJson?, read]
    exact first.bind describes_bool <| write.bind describes_bool <| optional.bind describes_bool <|
      unique.bind describes_bool <| initial.bind describes_bool <| partOf.bind describes_bool <|
      search.bind describes_bool <| encrypted.bind describes_bool <|
      persistent.bind describes_bool rfl

def AttributeDeclaration.fields : List (FieldRule AttributeDeclaration) := [
  .part {} "name" (·.name) (Plain .string),
  .part {} "type_ref" (·.typeRef) (Nullable (Plain .string)),
  .part {} "modifiers" (·.modifiers) Modifiers.Spelled,
  .part {} "redeclare" (·.redeclare) (Plain .bool),
  .part {} "custom_properties" (·.customProperties) (Elementwise CustomProperty.Spelled),
  .part {} "origin" (·.origin) (Nullable Origin.Spelled)]

def AttributeDeclaration.Spelled : Spelling AttributeDeclaration := Record AttributeDeclaration.fields

theorem AttributeDeclaration.describes :
    AttributeDeclaration.Spelled.Describes AttributeDeclaration.toJson AttributeDeclaration.ofJson? where
  written declaration := by
    refine Record.of_listed (by decide) rfl ?_
    exact .written (describes_string.written _) <| .written (describes_optionalString.written _) <|
      .written (Modifiers.describes.written _) <| .written (describes_bool.written _) <|
      .written (CustomProperty.describes.elementwise.written _) <|
      .written (describes_optionalOrigin.written _) <| .ended nofun
  read {declaration json} spelled := by
    obtain ⟨slots, read, fits⟩ := spelled.exists_slots
    obtain _ | ⟨name, _ | ⟨typeRef, _ | ⟨modifiers, _ | ⟨redeclare, _ | ⟨customProperties,
      _ | ⟨origin, ⟨⟩⟩⟩⟩⟩⟩⟩ := fits
    simp only [fields, List.map, FieldRule.name_part] at read
    simp only [ofJson?, read]
    exact name.bind describes_string <| typeRef.bind describes_optionalString <|
      modifiers.bind Modifiers.describes <| redeclare.bind describes_bool <|
      customProperties.bind CustomProperty.describes.elementwise <|
      origin.bind describes_optionalOrigin rfl

def Index.fields : List (FieldRule Index) := [
  .part {} "name" (·.name) (Plain .string),
  .part {} "keys" (·.keys) (Elementwise (Plain .string)),
  .part {} "unique" (·.unique) (Plain .bool),
  .part {} "replace" (·.replace) (Plain .bool),
  .part {} "remove" (·.remove) (Plain .bool),
  .part {} "origin" (·.origin) (Nullable Origin.Spelled)]

def Index.Spelled : Spelling Index := Record Index.fields

theorem Index.describes : Index.Spelled.Describes Index.toJson Index.ofJson? where
  written index := by
    refine Record.of_listed (by decide) rfl ?_
    exact .written (describes_string.written _) <|
      .written (describes_string.elementwise.written _) <| .written (describes_bool.written _) <|
      .written (describes_bool.written _) <| .written (describes_bool.written _) <|
      .written (describes_optionalOrigin.written _) <| .ended nofun
  read {index json} spelled := by
    obtain ⟨slots, read, fits⟩ := spelled.exists_slots
    obtain _ | ⟨name, _ | ⟨keys, _ | ⟨unique, _ | ⟨replace, _ | ⟨remove,
      _ | ⟨origin, ⟨⟩⟩⟩⟩⟩⟩⟩ := fits
    simp only [fields, List.map, FieldRule.name_part] at read
    simp only [ofJson?, read]
    exact name.bind describes_string <| keys.bind describes_string.elementwise <|
      unique.bind describes_bool <| replace.bind describes_bool <| remove.bind describes_bool <|
      origin.bind describes_optionalOrigin rfl

def ItemFlags.fields : List (FieldRule ItemFlags) := [
  .part {} "is_abstract" (·.isAbstract) (Plain .bool),
  .part {} "autocreate" (·.autocreate) (Plain .bool),
  .part {} "generate" (·.generate) (Plain .bool),
  .part {} "singleton" (·.singleton) (Plain .bool),
  .part {} "jalo_only" (·.jaloOnly) (Plain .bool)]

def ItemFlags.Spelled : Spelling ItemFlags := Record ItemFlags.fields

theorem ItemFlags.describes : ItemFlags.Spelled.Describes ItemFlags.toJson ItemFlags.ofJson? where
  written flags := by
    refine Record.of_listed (by decide) rfl ?_
    exact .written (describes_bool.written _) <| .written (describes_bool.written _) <|
      .written (describes_bool.written _) <| .written (describes_bool.written _) <|
      .written (describes_bool.written _) <| .ended nofun
  read {flags json} spelled := by
    obtain ⟨slots, read, fits⟩ := spelled.exists_slots
    obtain _ | ⟨isAbstract, _ | ⟨autocreate, _ | ⟨generate, _ | ⟨singleton,
      _ | ⟨jaloOnly, ⟨⟩⟩⟩⟩⟩⟩ := fits
    simp only [fields, List.map, FieldRule.name_part] at read
    simp only [ofJson?, read]
    exact isAbstract.bind describes_bool <| autocreate.bind describes_bool <|
      generate.bind describes_bool <| singleton.bind describes_bool <|
      jaloOnly.bind describes_bool rfl

def ItemDeclaration.fields : List (FieldRule ItemDeclaration) := [
  .part {} "name" (·.name) (Plain .string),
  .part {} "extends" (·.parent) (Nullable (Plain .string)),
  .part {} "attributes" (·.attributes) (Elementwise AttributeDeclaration.Spelled),
  .part {} "custom_properties" (·.customProperties) (Elementwise CustomProperty.Spelled),
  .part {} "indexes" (·.indexes) (Elementwise Index.Spelled),
  .part {} "flags" (·.flags) ItemFlags.Spelled,
  .part {} "origin" (·.origin) (Nullable Origin.Spelled)]

def ItemDeclaration.Spelled : Spelling ItemDeclaration := Record ItemDeclaration.fields

theorem ItemDeclaration.describes :
    ItemDeclaration.Spelled.Describes (.object ·.members) ItemDeclaration.ofJson? where
  written declaration := by
    refine Record.of_listed (by decide) rfl ?_
    exact .written (describes_string.written _) <| .written (describes_optionalString.written _) <|
      .written (AttributeDeclaration.describes.elementwise.written _) <|
      .written (CustomProperty.describes.elementwise.written _) <|
      .written (Index.describes.elementwise.written _) <|
      .written (ItemFlags.describes.written _) <| .written (describes_optionalOrigin.written _) <|
      .ended nofun
  read {declaration json} spelled := by
    obtain ⟨slots, read, fits⟩ := spelled.exists_slots
    obtain _ | ⟨name, _ | ⟨parent, _ | ⟨attributes, _ | ⟨customProperties, _ | ⟨indexes,
      _ | ⟨flags, _ | ⟨origin, ⟨⟩⟩⟩⟩⟩⟩⟩⟩ := fits
    simp only [fields, List.map, FieldRule.name_part] at read
    simp only [ofJson?, read]
    exact name.bind describes_string <| parent.bind describes_optionalString <|
      attributes.bind AttributeDeclaration.describes.elementwise <|
      customProperties.bind CustomProperty.describes.elementwise <|
      indexes.bind Index.describes.elementwise <| flags.bind ItemFlags.describes <|
      origin.bind describes_optionalOrigin rfl

def ValueDeclaration.fields : List (FieldRule ValueDeclaration) := [
  .part {} "code" (·.code) (Plain .string),
  .part {} "origin" (·.origin) (Nullable Origin.Spelled)]

def ValueDeclaration.Spelled : Spelling ValueDeclaration := Record ValueDeclaration.fields

theorem ValueDeclaration.describes :
    ValueDeclaration.Spelled.Describes ValueDeclaration.toJson ValueDeclaration.ofJson? where
  written value := by
    refine Record.of_listed (by decide) rfl ?_
    exact .written (describes_string.written _) <| .written (describes_optionalOrigin.written _) <|
      .ended nofun
  read {value json} spelled := by
    obtain ⟨slots, read, fits⟩ := spelled.exists_slots
    obtain _ | ⟨code, _ | ⟨origin, ⟨⟩⟩⟩ := fits
    simp only [fields, List.map, FieldRule.name_part] at read
    simp only [ofJson?, read]
    exact code.bind describes_string <| origin.bind describes_optionalOrigin rfl

def EnumerationDeclaration.fields : List (FieldRule EnumerationDeclaration) := [
  .part {} "name" (·.name) (Plain .string),
  .part {} "values" (·.values) (Elementwise ValueDeclaration.Spelled),
  .part {} "dynamic" (·.dynamic) (Plain .bool),
  .part {} "origin" (·.origin) (Nullable Origin.Spelled)]

def EnumerationDeclaration.Spelled : Spelling EnumerationDeclaration :=
  Record EnumerationDeclaration.fields

theorem EnumerationDeclaration.describes :
    EnumerationDeclaration.Spelled.Describes (.object ·.members) EnumerationDeclaration.ofJson? where
  written declaration := by
    refine Record.of_listed (by decide) rfl ?_
    exact .written (describes_string.written _) <|
      .written (ValueDeclaration.describes.elementwise.written _) <|
      .written (describes_bool.written _) <| .written (describes_optionalOrigin.written _) <|
      .ended nofun
  read {declaration json} spelled := by
    obtain ⟨slots, read, fits⟩ := spelled.exists_slots
    obtain _ | ⟨name, _ | ⟨values, _ | ⟨dynamic, _ | ⟨origin, ⟨⟩⟩⟩⟩⟩ := fits
    simp only [fields, List.map, FieldRule.name_part] at read
    simp only [ofJson?, read]
    exact name.bind describes_string <| values.bind ValueDeclaration.describes.elementwise <|
      dynamic.bind describes_bool <| origin.bind describes_optionalOrigin rfl

theorem describes_cardinality :
    (Plain fun cardinality : Cardinality => .string cardinality.word).Describes
      (.string ·.word) Cardinality.ofPart? :=
  describes_plain Cardinality.ofPart?_word

theorem describes_collectionKind :
    (Plain fun kind : CollectionKind => .string kind.word).Describes
      (.string ·.word) CollectionKind.ofPart? :=
  describes_plain CollectionKind.ofPart?_word

def EndDeclaration.fields : List (FieldRule EndDeclaration) := [
  .part {} "qualifier" (·.qualifier) (Nullable (Plain .string)),
  .part {} "type_name" (·.typeName) (Nullable (Plain .string)),
  .part {} "cardinality" (·.cardinality) (Plain fun cardinality => .string cardinality.word),
  .part {} "collection_kind" (·.collectionKind) (Plain fun kind => .string kind.word),
  .part {} "navigable" (·.navigable) (Plain .bool),
  .part {} "ordered" (·.ordered) (Plain .bool),
  .part {} "origin" (·.origin) (Nullable Origin.Spelled)]

def EndDeclaration.Spelled : Spelling EndDeclaration := Record EndDeclaration.fields

theorem EndDeclaration.describes :
    EndDeclaration.Spelled.Describes EndDeclaration.toJson EndDeclaration.ofJson? where
  written declaration := by
    refine Record.of_listed (by decide) rfl ?_
    exact .written (describes_optionalString.written _) <|
      .written (describes_optionalString.written _) <| .written (describes_cardinality.written _) <|
      .written (describes_collectionKind.written _) <| .written (describes_bool.written _) <|
      .written (describes_bool.written _) <| .written (describes_optionalOrigin.written _) <|
      .ended nofun
  read {declaration json} spelled := by
    obtain ⟨slots, read, fits⟩ := spelled.exists_slots
    obtain _ | ⟨qualifier, _ | ⟨typeName, _ | ⟨cardinality, _ | ⟨collectionKind, _ | ⟨navigable,
      _ | ⟨ordered, _ | ⟨origin, ⟨⟩⟩⟩⟩⟩⟩⟩⟩ := fits
    simp only [fields, List.map, FieldRule.name_part] at read
    simp only [ofJson?, read]
    exact qualifier.bind describes_optionalString <| typeName.bind describes_optionalString <|
      cardinality.bind describes_cardinality <| collectionKind.bind describes_collectionKind <|
      navigable.bind describes_bool <| ordered.bind describes_bool <|
      origin.bind describes_optionalOrigin rfl

def RelationDeclaration.fields : List (FieldRule RelationDeclaration) := [
  .part {} "name" (·.name) (Plain .string),
  .part {} "source" (·.source) EndDeclaration.Spelled,
  .part {} "target" (·.target) EndDeclaration.Spelled,
  .part {} "localized" (·.localized) (Plain .bool),
  .part {} "origin" (·.origin) (Nullable Origin.Spelled)]

def RelationDeclaration.Spelled : Spelling RelationDeclaration := Record RelationDeclaration.fields

theorem RelationDeclaration.describes :
    RelationDeclaration.Spelled.Describes (.object ·.members) RelationDeclaration.ofJson? where
  written declaration := by
    refine Record.of_listed (by decide) rfl ?_
    exact .written (describes_string.written _) <| .written (EndDeclaration.describes.written _) <|
      .written (EndDeclaration.describes.written _) <| .written (describes_bool.written _) <|
      .written (describes_optionalOrigin.written _) <| .ended nofun
  read {declaration json} spelled := by
    obtain ⟨slots, read, fits⟩ := spelled.exists_slots
    obtain _ | ⟨name, _ | ⟨source, _ | ⟨target, _ | ⟨localized, _ | ⟨origin, ⟨⟩⟩⟩⟩⟩⟩ := fits
    simp only [fields, List.map, FieldRule.name_part] at read
    simp only [ofJson?, read]
    exact name.bind describes_string <| source.bind EndDeclaration.describes <|
      target.bind EndDeclaration.describes <| localized.bind describes_bool <|
      origin.bind describes_optionalOrigin rfl

def CollectionType.fields : List (FieldRule CollectionType) := [
  .part {} "name" (·.name) (Plain .string),
  .part {} "element_type" (·.elementType) (Nullable (Plain .string)),
  .part {} "kind" (·.kind) (Plain fun kind => .string kind.word),
  .part {} "origin" (·.origin) (Nullable Origin.Spelled)]

def CollectionType.Spelled : Spelling CollectionType := Record CollectionType.fields

theorem CollectionType.describes :
    CollectionType.Spelled.Describes (.object ·.members) CollectionType.ofJson? where
  written declaration := by
    refine Record.of_listed (by decide) rfl ?_
    exact .written (describes_string.written _) <| .written (describes_optionalString.written _) <|
      .written (describes_collectionKind.written _) <|
      .written (describes_optionalOrigin.written _) <| .ended nofun
  read {declaration json} spelled := by
    obtain ⟨slots, read, fits⟩ := spelled.exists_slots
    obtain _ | ⟨name, _ | ⟨elementType, _ | ⟨kind, _ | ⟨origin, ⟨⟩⟩⟩⟩⟩ := fits
    simp only [fields, List.map, FieldRule.name_part] at read
    simp only [ofJson?, read]
    exact name.bind describes_string <| elementType.bind describes_optionalString <|
      kind.bind describes_collectionKind <| origin.bind describes_optionalOrigin rfl

def AtomicType.fields : List (FieldRule AtomicType) := [
  .part {} "class_name" (·.className) (Plain .string),
  .part {} "extends" (·.parent) (Nullable (Plain .string)),
  .part {} "origin" (·.origin) (Nullable Origin.Spelled)]

def AtomicType.Spelled : Spelling AtomicType := Record AtomicType.fields

theorem AtomicType.describes :
    AtomicType.Spelled.Describes (.object ·.members) AtomicType.ofJson? where
  written declaration := by
    refine Record.of_listed (by decide) rfl ?_
    exact .written (describes_string.written _) <| .written (describes_optionalString.written _) <|
      .written (describes_optionalOrigin.written _) <| .ended nofun
  read {declaration json} spelled := by
    obtain ⟨slots, read, fits⟩ := spelled.exists_slots
    obtain _ | ⟨className, _ | ⟨parent, _ | ⟨origin, ⟨⟩⟩⟩⟩ := fits
    simp only [fields, List.map, FieldRule.name_part] at read
    simp only [ofJson?, read]
    exact className.bind describes_string <| parent.bind describes_optionalString <|
      origin.bind describes_optionalOrigin rfl

def MapType.fields : List (FieldRule MapType) := [
  .part {} "name" (·.name) (Plain .string),
  .part {} "argument_type" (·.argumentType) (Nullable (Plain .string)),
  .part {} "return_type" (·.returnType) (Nullable (Plain .string)),
  .part {} "origin" (·.origin) (Nullable Origin.Spelled)]

def MapType.Spelled : Spelling MapType := Record MapType.fields

theorem MapType.describes : MapType.Spelled.Describes (.object ·.members) MapType.ofJson? where
  written declaration := by
    refine Record.of_listed (by decide) rfl ?_
    exact .written (describes_string.written _) <| .written (describes_optionalString.written _) <|
      .written (describes_optionalString.written _) <|
      .written (describes_optionalOrigin.written _) <| .ended nofun
  read {declaration json} spelled := by
    obtain ⟨slots, read, fits⟩ := spelled.exists_slots
    obtain _ | ⟨name, _ | ⟨argumentType, _ | ⟨returnType, _ | ⟨origin, ⟨⟩⟩⟩⟩⟩ := fits
    simp only [fields, List.map, FieldRule.name_part] at read
    simp only [ofJson?, read]
    exact name.bind describes_string <| argumentType.bind describes_optionalString <|
      returnType.bind describes_optionalString <| origin.bind describes_optionalOrigin rfl

namespace Declaration

/-- What may be written for the fields of a declaration, without its tag. -/
def RecordSpelled : Spelling Declaration
  | .item declaration => declaration.Spelled
  | .enumeration declaration => declaration.Spelled
  | .relation declaration => declaration.Spelled
  | .collection declaration => declaration.Spelled
  | .atomic declaration => declaration.Spelled
  | .map declaration => declaration.Spelled

/-- A declaration has its tag before the elements of an array or anywhere among the members of an
object. No other member has the tag's name, unless it is a field. -/
inductive Spelled (declaration : Declaration) : Json → Prop where
  | object {members record : List (String × Json)}
      (tagged : members.Perm (("kind", .string declaration.kind.word) :: record))
      (sole : "kind" ∈ record.map Prod.fst → "kind" ∈ declaration.members.map Prod.fst)
      (spelled : declaration.RecordSpelled (.object record)) : Spelled declaration (.object members)
  | array {elements : List Json} (spelled : declaration.RecordSpelled (.array elements)) :
      Spelled declaration (.array (.string declaration.kind.word :: elements))

theorem recordSpelled_members (declaration : Declaration) :
    declaration.RecordSpelled (.object declaration.members) := by
  cases declaration with
  | item declaration => exact ItemDeclaration.describes.written declaration
  | enumeration declaration => exact EnumerationDeclaration.describes.written declaration
  | relation declaration => exact RelationDeclaration.describes.written declaration
  | collection declaration => exact CollectionType.describes.written declaration
  | atomic declaration => exact AtomicType.describes.written declaration
  | map declaration => exact MapType.describes.written declaration

theorem ofRecord?_of_recordSpelled {declaration : Declaration} {json : Json}
    (spelled : declaration.RecordSpelled json) :
    ofRecord? json declaration.kind = some declaration := by
  cases declaration with
  | item => exact congrArg (Option.map _) (ItemDeclaration.describes.read spelled)
  | enumeration => exact congrArg (Option.map _) (EnumerationDeclaration.describes.read spelled)
  | relation => exact congrArg (Option.map _) (RelationDeclaration.describes.read spelled)
  | collection => exact congrArg (Option.map _) (CollectionType.describes.read spelled)
  | atomic => exact congrArg (Option.map _) (AtomicType.describes.read spelled)
  | map => exact congrArg (Option.map _) (MapType.describes.read spelled)

/-- The tag takes all members of its name with it. Of a collection that is not special, that is
at most a kind that need not be written. -/
theorem recordSpelled_without_kind {declaration : Declaration} {members kept : List (String × Json)}
    (ordinary : ¬ declaration.isSpecialCollection)
    (spelled : declaration.RecordSpelled (.object members))
    (permuted : kept.Perm (members.filter (·.1 ≠ "kind"))) :
    declaration.RecordSpelled (.object kept) := by
  cases declaration with
  | item => exact Record.filter_name spelled (by simp [ItemDeclaration.fields]) permuted
  | enumeration => exact Record.filter_name spelled (by simp [EnumerationDeclaration.fields]) permuted
  | relation => exact Record.filter_name spelled (by simp [RelationDeclaration.fields]) permuted
  | collection declaration =>
    have kind : declaration.kind = .collection := by simpa [isSpecialCollection] using ordinary
    exact Record.filter_name spelled (by simp [CollectionType.fields, kind]) permuted
  | atomic => exact Record.filter_name spelled (by simp [AtomicType.fields]) permuted
  | map => exact Record.filter_name spelled (by simp [MapType.fields]) permuted

/-- What stands under the tag's name beside the tag can only be the kind of a collection, and that
is written like the tag. -/
theorem eq_tag_of_recordSpelled {declaration : Declaration} {record : List (String × Json)}
    (ordinary : ¬ declaration.isSpecialCollection)
    (sole : "kind" ∈ record.map Prod.fst → "kind" ∈ declaration.members.map Prod.fst)
    (spelled : declaration.RecordSpelled (.object record)) :
    ∀ json ∈ valuesUnder "kind" record, json = .string declaration.kind.word := by
  by_cases named : "kind" ∈ declaration.members.map Prod.fst
  · cases declaration with
    | collection declaration =>
      have kind : declaration.kind = .collection := by simpa [isSpecialCollection] using ordinary
      obtain ⟨each⟩ | _ := spelled
      obtain ⟨slot, values, fits⟩ := each (.part {} "kind" (·.kind) (Plain (.string ·.word)))
        (by simp [CollectionType.fields])
      rw [FieldRule.name_part] at values
      rw [← values]
      intro json inside
      obtain rfl : slot = some json := Option.mem_toList.mp inside
      have written : json = .string declaration.kind.word := fits
      rw [written, kind]
      rfl
    | _ => simp [members, ItemDeclaration.members, EnumerationDeclaration.members,
        RelationDeclaration.members, AtomicType.members, MapType.members] at named
  · rw [Json.valuesUnder_eq_nil fun inside => named (sole inside)]
    simp

theorem untag?_of_tagged {declaration : Declaration} {members record : List (String × Json)}
    (ordinary : ¬ declaration.isSpecialCollection)
    (tagged : members.Perm (("kind", .string declaration.kind.word) :: record))
    (sole : "kind" ∈ record.map Prod.fst → "kind" ∈ declaration.members.map Prod.fst)
    (spelled : declaration.RecordSpelled (.object record)) :
    Json.untag? (.object members) =
      some (.string declaration.kind.word, .object (members.filter (·.1 ≠ "kind"))) := by
  have values := Json.valuesUnder_perm "kind" tagged
  rw [Json.valuesUnder_cons, if_pos rfl] at values
  have tag : Json.lastMember? "kind" members = some (.string declaration.kind.word) := by
    apply Json.lastMember?_of_forall
    · exact values.mem_iff.mpr List.mem_cons_self
    · intro json inside
      obtain rfl | inside := List.mem_cons.mp (values.mem_iff.mp inside)
      · rfl
      · exact eq_tag_of_recordSpelled ordinary sole spelled json inside
  rw [Json.untag?, tag, Option.map_some]

/-- Every spelling of a declaration stands for it, with the exception of special collections. -/
theorem ofJson?_of_spelled {declaration : Declaration} {json : Json}
    (ordinary : ¬ declaration.isSpecialCollection) (spelled : declaration.Spelled json) :
    ofJson? json = some declaration := by
  obtain ⟨record, untagged, recordSpelled⟩ : ∃ record,
      json.untag? = some (.string declaration.kind.word, record) ∧ declaration.RecordSpelled record := by
    cases spelled with
    | @object members record tagged sole spelled =>
      refine ⟨_, untag?_of_tagged ordinary tagged sole spelled, ?_⟩
      apply recordSpelled_without_kind ordinary spelled
      simpa using tagged.filter (·.1 ≠ "kind")
    | array spelled => exact ⟨_, rfl, spelled⟩
  simp [ofJson?, untagged, DeclarationKind.ofWord?_word, ofRecord?_of_recordSpelled recordSpelled]

theorem spelled_toJson (declaration : Declaration) : declaration.Spelled declaration.toJson :=
  .object (.refl _) id declaration.recordSpelled_members

end Declaration

namespace Json

/-- An empty array inside so many others. -/
def nested : Nat → Json
  | 0 => .array []
  | depth + 1 => .array [nested depth]

theorem utf8_compact_nested (depth : Nat) :
    utf8 (nested depth).compact =
      List.replicate (depth + 1) 0x5B ++ List.replicate (depth + 1) 0x5D := by
  have marks : utf8 "[" = [0x5B] ∧ utf8 "]" = [0x5D] := by decide
  induction depth with
  | zero => decide
  | succ depth ih =>
    rw [nested, compact, compactElements, compactElements, separated, utf8_append, utf8_append, ih,
      marks.1, marks.2, List.singleton_append, ← List.cons_append, List.append_assoc,
      ← List.replicate_succ, ← List.replicate_succ']

@[simp] theorem depth_nested (count : Nat) : (nested count).depth = count + 1 := by
  induction count with
  | zero => rfl
  | succ count ih => simp [nested, depth, depthOfElements, ih]

/-- Where a value may begin, brackets are refused as soon as they nest too deep. -/
theorem Reader.feed_brackets_eq_none {reader : Reader} (around : List Frame) {count : Nat}
    (begins : reader.step 0x5B = beginValue around 0x5B) (allowed : around.length ≤ depthLimit)
    (deep : depthLimit < around.length + count) :
    reader.feed (List.replicate count 0x5B) = none := by
  induction count generalizing reader around with
  | zero => omega
  | succ count ih =>
    rw [List.replicate_succ, feed, begins]
    by_cases shallow : around.length < depthLimit
    · have opened : beginValue around 0x5B = some (.arrayStart around) := by
        simp [beginValue, shallow]
      rw [opened, Option.bind_some]
      apply ih (.array [] :: around) rfl
      · simp only [List.length_cons]; omega
      · simp only [List.length_cons]; omega
    · simp [beginValue, shallow]

theorem read_eq_malformed {opening rest : String} {reader : Reader}
    (opened : Reader.start.feed (utf8 opening) = some reader)
    (refused : reader.feed (utf8 rest) = none) :
    read (.ofString (opening ++ rest)) = .error .malformed := by
  have fed : Reader.start.feedAll [utf8 (opening ++ rest)] = none := by
    rw [Reader.feedAll_eq_feed_flatten, List.flatten_singleton, utf8_append, Reader.feed_append,
      opened, Option.bind_some, refused]
  rw [read, Stream.ofString, fed]

end Json

namespace Exchange

theorem compact_item_with (inner : Json) :
    (Json.array [.object [("kind", .string "item"), ("x", inner)]]).compact =
      "[\x7b\"kind\":\"item\",\"x\":" ++ inner.compact ++ "\x7d" ++ "]" := by
  have quoted : Json.quote "kind" = "\"kind\"" ∧ Json.quote "item" = "\"item\"" ∧
      Json.quote "x" = "\"x\"" := by decide
  simp [Json.compact, Json.compactElements, Json.compactMembers, Json.separated, quoted,
    ← String.append_assoc]

theorem load_of_read {text : String} {json : Json} {declaration : Declaration}
    (read : Json.read (.ofString text) = .ok (.array [json]))
    (decoded : Declaration.ofJson? json = some declaration) : load text = .ok [declaration] := by
  simp [load, Exchange.read, read, ofJson, decoded]

/-- Every text that is read as an array of one spelling of a declaration is loaded as that
declaration. The printed text of the array is one, if nothing in it is nested too deep; otherwise
there is none. -/
theorem load_spelled {declaration : Declaration} (ordinary : ¬ declaration.isSpecialCollection) :
    declaration.Spelled declaration.toJson ∧
    ∀ json, declaration.Spelled json →
      (∀ text, Json.read (.ofString text) = .ok (.array [json]) → load text = .ok [declaration]) ∧
      (Json.Legible Json.Reader.depthLimit (.array [json]) →
        load (Json.array [json]).pretty = .ok [declaration]) ∧
      (Json.Reader.depthLimit < (Json.array [json]).depth →
        ∀ text, Json.read (.ofString text) ≠ .ok (.array [json])) := by
  refine ⟨declaration.spelled_toJson, ?_⟩
  intro json spelled
  have decoded : Declaration.ofJson? json = some declaration :=
    Declaration.ofJson?_of_spelled ordinary spelled
  refine ⟨?_, ?_, ?_⟩
  · intro text read
    exact load_of_read read decoded
  · intro legible
    exact load_of_read (Json.read_pretty legible) decoded
  · intro deep text read
    have shallow := Json.depth_le_of_read read
    omega

/-- Shuffled members, left out defaults, unknown members and arrays, at all levels of one item; and
one more unknown member, nested too deep for any text. -/
theorem load_spelled_mixed :
    let declaration : Declaration := .item {
      name := "Product"
      attributes := [{
        name := "code"
        modifiers := { unique := true }
        origin := some ⟨⟨3⟩, ⟨5, 9, by decide⟩⟩ }]
      flags := { isAbstract := true } }
    let coded : Json := .array [.string "code", .null,
      .object [("note", .null), ("unique", .bool true)], .bool false, .array [],
      .object [("range", .array [.integer 5, .integer 9]), ("kind", .bool true), ("file", .integer 3)]]
    let record : List (String × Json) := [
      ("flags", .array [.bool true]),
      ("attributes", .array [coded]),
      ("note", .object [("name", .null)]),
      ("name", .string "Product")]
    let json : Json := .object (record ++ [("kind", .string "item")])
    let deep : Json := .object (("kind", .string "item") :: ("x", .nested 125) :: record)
    ¬ declaration.isSpecialCollection ∧ declaration.Spelled json ∧
      load (Json.array [json]).pretty = .ok [declaration] ∧
      declaration.Spelled deep ∧ ∀ text, Json.read (.ofString text) ≠ .ok (.array [deep]) := by
  intro declaration coded record json deep
  have ordinary : ¬ declaration.isSpecialCollection := by decide
  have modifiers : Modifiers.Spelled { unique := true }
      (.object [("note", .null), ("unique", .bool true)]) :=
    .object (by simp [Modifiers.fields, Plain])
  have origin : Origin.Spelled ⟨⟨3⟩, ⟨5, 9, by decide⟩⟩
      (.object [("range", .array [.integer 5, .integer 9]), ("kind", .bool true),
        ("file", .integer 3)]) :=
    .object (by simp [Origin.fields, Plain, Span.toJson])
  have attributes : Elementwise AttributeDeclaration.Spelled
      [⟨"code", none, { unique := true }, false, [], some ⟨⟨3⟩, ⟨5, 9, by decide⟩⟩⟩]
      (.array [coded]) :=
    ⟨[coded], rfl, .cons (.array <| .written rfl <| .written rfl <| .written modifiers <|
      .written rfl <| .written ⟨[], rfl, .nil⟩ <| .written origin <| .ended (by simp)) .nil⟩
  have flags : ItemFlags.Spelled { isAbstract := true } (.array [.bool true]) :=
    .array <| .written rfl <| .ended (by simp)
  have spelled : declaration.Spelled json := by
    refine .object (List.perm_append_singleton _ record) (by simp [record]) (.object ?_)
    simp [ItemDeclaration.fields, record, Plain, attributes, flags]
  have legible : Json.Legible Json.Reader.depthLimit (.array [json]) := by
    have numbers (room : Nat) : Json.Legible room (.integer 3) ∧ Json.Legible room (.integer 5) ∧
        Json.Legible room (.integer 9) :=
      ⟨.natural room (n := 3) (by decide), .natural room (n := 5) (by decide),
        .natural room (n := 9) (by decide)⟩
    simp [json, record, coded, Json.Reader.depthLimit, numbers]
  have deepSpelled : declaration.Spelled deep := by
    refine .object (.refl _) (by simp [record]) (.object ?_)
    simp [ItemDeclaration.fields, record, Plain, attributes, flags]
  have exceeds : Json.Reader.depthLimit < (Json.array [deep]).depth := by
    simp [deep, record, coded, Json.Reader.depthLimit, Json.depth, Json.depthOfElements,
      Json.depthOfMembers]
  exact ⟨ordinary, spelled, ((load_spelled ordinary).2 json spelled).2.1 legible, deepSpelled,
    ((load_spelled ordinary).2 deep deepSpelled).2.2 exceeds⟩

/-- An unknown member that is nested too deep makes a text malformed that spells a declaration. -/
theorem load_nested_member :
    let json : Json := .object [("kind", .string "item"), ("x", .nested 125)]
    (Declaration.item {}).Spelled json ∧ load (Json.array [json]).compact = .error .malformed := by
  intro json
  constructor
  · exact .object (.refl _) (by simp) (.object (by simp [ItemDeclaration.fields]))
  · have opened : Json.Reader.start.feed (Json.utf8 "[\x7b\"kind\":\"item\",\"x\":") =
        some (.expectValue [.object [("kind", .string "item")] "x", .array []]) := by rfl
    have refused : (Json.Reader.expectValue [.object [("kind", .string "item")] "x", .array []]).feed
        (Json.utf8 ((Json.nested 125).compact ++ ("\x7d" ++ "]"))) = none := by
      rw [Json.utf8_append, Json.utf8_compact_nested, List.append_assoc, Json.Reader.feed_append,
        Json.Reader.feed_brackets_eq_none [.object [("kind", .string "item")] "x", .array []] rfl
          (by decide) (by decide)]
      rfl
    rw [load, Exchange.read, compact_item_with, String.append_assoc, String.append_assoc,
      Json.read_eq_malformed opened refused]

end Exchange

end ItemSchema
