import ItemSchema.Exchange.Load
import ItemSchema.Proofs.Json.Layout

/-! What is written of a set of declarations can be loaded again, with one exception.

Every record is read back from the object written for it, field by field. Only a
declaration has a member that is no field, its tag, and only the fields of a
collection have a name that is the tag's. So of all declarations, collections of
another kind than the default one are written in a way that cannot be loaded.
-/

set_option autoImplicit false

namespace ItemSchema

namespace Json

theorem lastMember?_eq_none {name : String} {members : List (String × Json)}
    (absent : name ∉ members.map Prod.fst) : lastMember? name members = none := by
  induction members with
  | nil => rfl
  | cons member rest ih =>
    simp only [List.map_cons, List.mem_cons, not_or] at absent
    simp [lastMember?, ih absent.2, Ne.symm absent.1]

/-- The slots of an object that has exactly the fields of a record, each once, are its members. -/
theorem slots?_of_members {fields : List String} {members : List (String × Json)}
    (named : members.map Prod.fst = fields) (distinct : fields.Nodup) :
    slots? fields (.object members) = some (members.map fun member => some member.2) := by
  subst named
  simp only [slots?, List.map_map, Option.some.injEq]
  induction members with
  | nil => rfl
  | cons member rest ih =>
    simp only [List.map_cons, List.nodup_cons] at distinct
    have first : lastMember? member.1 (member :: rest) = some member.2 := by
      simp [lastMember?, lastMember?_eq_none distinct.1]
    have later : rest.map ((fun field => lastMember? field (member :: rest)) ∘ Prod.fst) =
        rest.map ((fun field => lastMember? field rest) ∘ Prod.fst) := by
      apply List.map_congr_left
      intro other inside
      have unequal : member.1 ≠ other.1 := by
        intro same
        exact distinct.1 (same ▸ List.mem_map_of_mem inside)
      simp only [Function.comp_apply, lastMember?, unequal, if_false]
      cases lastMember? other.1 rest <;> rfl
    simp only [List.map_cons, Function.comp_apply, first, later, ih distinct.2]

@[simp] theorem optional?_ofOption {α : Type} {encode : α → Json} {decode : Json → Option α}
    (decoded : ∀ value, decode (encode value) = some value) (present : ∀ value, encode value ≠ .null)
    (value : Option α) : optional? decode (ofOption encode value) = some value := by
  cases value with
  | none => rfl
  | some value => simp [ofOption, optional?, present, decoded]

@[simp] theorem list?_map {α : Type} {encode : α → Json} {decode : Json → Option α}
    (decoded : ∀ value, decode (encode value) = some value) (values : List α) :
    list? decode (array (values.map encode)) = some values := by
  rw [list?]
  induction values with
  | nil => rfl
  | cons value rest ih => simp [decoded, ih]

@[simp] theorem string?_string (value : String) : string? (.string value) = some value := by
  rw [string?]

@[simp] theorem bool?_bool (value : Bool) : bool? (.bool value) = some value := by
  rw [bool?]

@[simp] theorem word32?_toNat (word : UInt32) : word32? (integer word.toNat) = some word := by
  have small : word.toNat < Nat.pow 2 32 := word.toNat_lt
  change (if word.toNat < Nat.pow 2 32 then some (UInt32.ofNat word.toNat) else none) = some word
  rw [if_pos small, UInt32.ofNat_toNat]

end Json

open Json (slots?_of_members fieldOr)

@[simp] theorem Span.ofJson?_toJson (span : Span) : Span.ofJson? span.toJson = some span := by
  simp [Span.toJson, Span.ofJson?, Span.ofOffsets?_eq_some_iff]

@[simp] theorem Origin.ofJson?_toJson (origin : Origin) : Origin.ofJson? origin.toJson = some origin := by
  simp [Origin.ofJson?, Origin.toJson, slots?_of_members]

@[simp] theorem Origin.toJson_ne_null (origin : Origin) : origin.toJson ≠ .null := by
  simp [Origin.toJson]

@[simp] theorem CustomProperty.ofJson?_toJson (property : CustomProperty) :
    CustomProperty.ofJson? property.toJson = some property := by
  simp [CustomProperty.ofJson?, CustomProperty.toJson, slots?_of_members, fieldOr]

@[simp] theorem Modifiers.ofJson?_toJson (modifiers : Modifiers) :
    Modifiers.ofJson? modifiers.toJson = some modifiers := by
  simp [Modifiers.ofJson?, Modifiers.toJson, slots?_of_members, fieldOr]

@[simp] theorem AttributeDeclaration.ofJson?_toJson (declaration : AttributeDeclaration) :
    AttributeDeclaration.ofJson? declaration.toJson = some declaration := by
  simp [AttributeDeclaration.ofJson?, AttributeDeclaration.toJson, slots?_of_members, fieldOr]

@[simp] theorem Index.ofJson?_toJson (index : Index) : Index.ofJson? index.toJson = some index := by
  simp [Index.ofJson?, Index.toJson, slots?_of_members, fieldOr]

@[simp] theorem ItemFlags.ofJson?_toJson (flags : ItemFlags) :
    ItemFlags.ofJson? flags.toJson = some flags := by
  simp [ItemFlags.ofJson?, ItemFlags.toJson, slots?_of_members, fieldOr]

@[simp] theorem ItemDeclaration.ofJson?_members (declaration : ItemDeclaration) :
    ItemDeclaration.ofJson? (.object declaration.members) = some declaration := by
  simp [ItemDeclaration.ofJson?, ItemDeclaration.members, slots?_of_members, fieldOr]

@[simp] theorem ValueDeclaration.ofJson?_toJson (value : ValueDeclaration) :
    ValueDeclaration.ofJson? value.toJson = some value := by
  simp [ValueDeclaration.ofJson?, ValueDeclaration.toJson, slots?_of_members, fieldOr]

@[simp] theorem EnumerationDeclaration.ofJson?_members (declaration : EnumerationDeclaration) :
    EnumerationDeclaration.ofJson? (.object declaration.members) = some declaration := by
  simp [EnumerationDeclaration.ofJson?, EnumerationDeclaration.members, slots?_of_members, fieldOr]

@[simp] theorem Cardinality.ofPart?_word (cardinality : Cardinality) :
    Cardinality.ofPart? (.string cardinality.word) = some cardinality := by
  cases cardinality <;> rfl

@[simp] theorem CollectionKind.ofPart?_word (kind : CollectionKind) :
    CollectionKind.ofPart? (.string kind.word) = some kind := by
  cases kind <;> rfl

@[simp] theorem EndDeclaration.ofJson?_toJson (declaration : EndDeclaration) :
    EndDeclaration.ofJson? declaration.toJson = some declaration := by
  simp [EndDeclaration.ofJson?, EndDeclaration.toJson, slots?_of_members, fieldOr]

@[simp] theorem RelationDeclaration.ofJson?_members (declaration : RelationDeclaration) :
    RelationDeclaration.ofJson? (.object declaration.members) = some declaration := by
  simp [RelationDeclaration.ofJson?, RelationDeclaration.members, slots?_of_members, fieldOr]

@[simp] theorem AtomicType.ofJson?_members (declaration : AtomicType) :
    AtomicType.ofJson? (.object declaration.members) = some declaration := by
  simp [AtomicType.ofJson?, AtomicType.members, slots?_of_members, fieldOr]

@[simp] theorem MapType.ofJson?_members (declaration : MapType) :
    MapType.ofJson? (.object declaration.members) = some declaration := by
  simp [MapType.ofJson?, MapType.members, slots?_of_members, fieldOr]

/-- Without another member of its name, the tag comes off a record as it was put on. -/
theorem Json.untag?_tagged (tag : Json) {members : List (String × Json)}
    (untagged : "kind" ∉ members.map Prod.fst) :
    untag? (.object (("kind", tag) :: members)) = some (tag, .object members) := by
  have others : ∀ member ∈ members, member.1 ≠ "kind" := by
    intro member inside same
    exact untagged (same ▸ List.mem_map_of_mem inside)
  simpa [untag?, lastMember?, lastMember?_eq_none untagged] using others

theorem DeclarationKind.ofWord?_word (kind : DeclarationKind) : ofWord? kind.word = some kind := by
  cases kind <;> rfl

theorem Declaration.ofJson?_of_untagged {declaration : Declaration}
    (untagged : "kind" ∉ declaration.members.map Prod.fst) :
    Declaration.ofJson? declaration.toJson =
      Declaration.ofRecord? (.object declaration.members) declaration.kind := by
  simp [Declaration.ofJson?, Declaration.toJson, Json.untag?_tagged _ untagged,
    DeclarationKind.ofWord?_word]

/-- The kind of a collection takes the place of its tag, and is lost itself. -/
theorem CollectionType.untag?_toJson (declaration : CollectionType) :
    (Declaration.collection declaration).toJson.untag? =
      some (.string declaration.kind.word,
        .object [("name", .string declaration.name),
          ("element_type", .ofOption .string declaration.elementType),
          ("origin", .ofOption Origin.toJson declaration.origin)]) := by
  simp [Declaration.toJson, Declaration.members, CollectionType.members, Json.untag?, Json.lastMember?]

theorem CollectionType.ofJson?_withoutKind (declaration : CollectionType) :
    CollectionType.ofJson? (.object [("name", .string declaration.name),
        ("element_type", .ofOption .string declaration.elementType),
        ("origin", .ofOption Origin.toJson declaration.origin)]) =
      some { declaration with kind := .collection } := by
  simp [CollectionType.ofJson?, Json.slots?, Json.lastMember?, fieldOr]

/-- Whether a declaration is a collection of another kind than the default one. -/
def Declaration.isSpecialCollection : Declaration → Bool
  | .collection declaration => declaration.kind ≠ .collection
  | _ => false

/-- The written form of a declaration stands for it, but that of a special collection for nothing. -/
theorem Declaration.ofJson?_toJson (declaration : Declaration) :
    Declaration.ofJson? declaration.toJson =
      if declaration.isSpecialCollection then none else some declaration := by
  cases declaration with
  | item declaration =>
    rw [ofJson?_of_untagged (by simp [members, ItemDeclaration.members])]
    simp [kind, members, ofRecord?, isSpecialCollection]
  | enumeration declaration =>
    rw [ofJson?_of_untagged (by simp [members, EnumerationDeclaration.members])]
    simp [kind, members, ofRecord?, isSpecialCollection]
  | relation declaration =>
    rw [ofJson?_of_untagged (by simp [members, RelationDeclaration.members])]
    simp [kind, members, ofRecord?, isSpecialCollection]
  | collection declaration =>
    rw [ofJson?, CollectionType.untag?_toJson]
    obtain ⟨name, elementType, own, origin⟩ := declaration
    cases own with
    | collection =>
      have record := CollectionType.ofJson?_withoutKind ⟨name, elementType, .collection, origin⟩
      exact congrArg (Option.map Declaration.collection) record
    | list | set => rfl
  | atomic declaration =>
    rw [ofJson?_of_untagged (by simp [members, AtomicType.members])]
    simp [kind, members, ofRecord?, isSpecialCollection]
  | map declaration =>
    rw [ofJson?_of_untagged (by simp [members, MapType.members])]
    simp [kind, members, ofRecord?, isSpecialCollection]

section Legibility

open Json (Legible)

variable (room : Nat)

@[simp] theorem Json.legible_ofOption {α : Type} {encode : α → Json} {room : Nat}
    (each : ∀ value, Legible room (encode value)) (value : Option α) :
    Legible room (ofOption encode value) := by
  cases value with
  | none => exact .null room
  | some value => exact each value

@[simp] theorem Origin.legible_toJson (origin : Origin) : Legible (room + 2) origin.toJson := by
  simp [Origin.toJson, Span.toJson]

@[simp] theorem CustomProperty.legible_toJson (property : CustomProperty) :
    Legible (room + 1) property.toJson := by
  simp [CustomProperty.toJson]

@[simp] theorem Modifiers.legible_toJson (modifiers : Modifiers) :
    Legible (room + 1) modifiers.toJson := by
  simp [Modifiers.toJson]

@[simp] theorem AttributeDeclaration.legible_toJson (declaration : AttributeDeclaration) :
    Legible (room + 3) declaration.toJson := by
  simp [AttributeDeclaration.toJson]

@[simp] theorem Index.legible_toJson (index : Index) : Legible (room + 3) index.toJson := by
  simp [Index.toJson]

@[simp] theorem ItemFlags.legible_toJson (flags : ItemFlags) : Legible (room + 1) flags.toJson := by
  simp [ItemFlags.toJson]

@[simp] theorem ValueDeclaration.legible_toJson (value : ValueDeclaration) :
    Legible (room + 3) value.toJson := by
  simp [ValueDeclaration.toJson]

@[simp] theorem EndDeclaration.legible_toJson (declaration : EndDeclaration) :
    Legible (room + 3) declaration.toJson := by
  simp [EndDeclaration.toJson]

/-- A declaration is nested five levels deep at most. -/
theorem Declaration.legible_toJson (declaration : Declaration) :
    Legible (room + 5) declaration.toJson := by
  cases declaration with
  | item declaration => simp [toJson, members, ItemDeclaration.members]
  | enumeration declaration => simp [toJson, members, EnumerationDeclaration.members]
  | relation declaration => simp [toJson, members, RelationDeclaration.members]
  | collection declaration => simp [toJson, members, CollectionType.members]
  | atomic declaration => simp [toJson, members, AtomicType.members]
  | map declaration => simp [toJson, members, MapType.members]

end Legibility

namespace Exchange

/-- What is loaded from a written set are the values that were written. -/
theorem load_write_eq_ofJson (declarations : List Declaration) :
    load (write declarations) = ofJson (.array (declarations.map Declaration.toJson)) := by
  have legible : Json.Legible Json.Reader.depthLimit
      (.array (declarations.map Declaration.toJson)) := by
    apply Json.Legible.array
    intro element written
    obtain ⟨declaration, -, rfl⟩ := List.mem_map.mp written
    exact declaration.legible_toJson 121
  rw [load, write, read, Json.read_pretty legible]

theorem mapM_ofJson?_toJson (declarations : List Declaration) :
    (declarations.map Declaration.toJson).mapM Declaration.ofJson? =
      if declarations.any (·.isSpecialCollection) then none else some declarations := by
  induction declarations with
  | nil => rfl
  | cons declaration rest ih =>
    rw [List.map_cons, List.mapM_cons, Declaration.ofJson?_toJson, ih, List.any_cons]
    cases declaration.isSpecialCollection <;> cases rest.any (·.isSpecialCollection) <;> rfl

theorem load_write_eq (declarations : List Declaration) :
    load (write declarations) =
      if declarations.any (·.isSpecialCollection) then .error .malformed else .ok declarations := by
  rw [load_write_eq_ofJson, ofJson, mapM_ofJson?_toJson]
  cases declarations.any (·.isSpecialCollection) <;> rfl

theorem any_isSpecialCollection_iff (declarations : List Declaration) :
    declarations.any (·.isSpecialCollection) ↔
      ∃ collection, .collection collection ∈ declarations ∧
        (collection.kind = .list ∨ collection.kind = .set) := by
  have special : ∀ collection : CollectionType,
      (Declaration.collection collection).isSpecialCollection ↔
        collection.kind = .list ∨ collection.kind = .set := by
    intro collection
    cases kind : collection.kind <;> simp [Declaration.isSpecialCollection, kind]
  rw [List.any_eq_true]
  constructor
  · rintro ⟨declaration, member, isSpecial⟩
    cases declaration with
    | collection collection => exact ⟨collection, member, (special collection).mp isSpecial⟩
    | _ => cases isSpecial
  · rintro ⟨collection, member, kind⟩
    exact ⟨.collection collection, member, (special collection).mpr kind⟩

/-- A written set of declarations is loaded as it was, exactly when no collection in it is a list
or a set; otherwise it is malformed. -/
theorem load_write (declarations : List Declaration) :
    (load (write declarations) = .ok declarations ↔
      ∀ collection, .collection collection ∈ declarations →
        collection.kind ≠ .list ∧ collection.kind ≠ .set) ∧
    (load (write declarations) = .error .malformed ↔
      ∃ collection, .collection collection ∈ declarations ∧
        (collection.kind = .list ∨ collection.kind = .set)) := by
  have plain : (∀ collection, .collection collection ∈ declarations →
      collection.kind ≠ .list ∧ collection.kind ≠ .set) ↔
      ¬ ∃ collection, .collection collection ∈ declarations ∧
        (collection.kind = .list ∨ collection.kind = .set) := by
    simp only [not_exists, not_and, not_or, ne_eq]
  rw [plain, ← any_isSpecialCollection_iff, load_write_eq]
  cases declarations.any (·.isSpecialCollection) <;> simp

end Exchange

end ItemSchema
