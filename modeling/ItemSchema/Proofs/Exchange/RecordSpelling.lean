import ItemSchema.Proofs.Exchange.RoundTrip
import Mathlib.Data.List.Forall2

/-! The many ways to write one record in JSON, all read alike.

A spelling relates values to what may be written for them. It describes a pair of
an encoder and a decoder when what is encoded is spelled and whatever is spelled is
decoded as the value it stands for. Spellings are put together as the values are, so
that a record may be written differently at every place where it occurs.
-/

set_option autoImplicit false

namespace ItemSchema.Json

variable {α β ρ : Type}

/-- Which JSON values may be written for a value. -/
abbrev Spelling (α : Type) := α → Json → Prop

namespace Spelling

/-- A value that is written in one way only. -/
def Plain (encode : α → Json) : Spelling α := fun value json => json = encode value

def Nullable (spelling : Spelling α) : Spelling (Option α)
  | none, json => json = .null
  | some value, json => spelling value json

def Elementwise (spelling : Spelling α) : Spelling (List α) := fun values json =>
  ∃ elements, json = .array elements ∧ List.Forall₂ spelling values elements

end Spelling

/-- How a field of a record is written: its name, the spellings of it, and when it may be left out. -/
structure FieldRule (ρ : Type) where
  name : String
  Spelled : Spelling ρ
  Omissible : ρ → Prop

namespace FieldRule

/-- A part that may be left out where a record agrees with the default one. -/
def part (default : ρ) (name : String) (get : ρ → α) (spelling : Spelling α) : FieldRule ρ where
  name := name
  Spelled record := spelling (get record)
  Omissible record := get record = get default

/-- A part that is never left out. -/
def required (name : String) (get : ρ → α) (spelling : Spelling α) : FieldRule ρ where
  name := name
  Spelled record := spelling (get record)
  Omissible _ := False

/-- Whether a slot has what a record may have written for the field. -/
def Fits (field : FieldRule ρ) (record : ρ) : Option Json → Prop
  | none => field.Omissible record
  | some json => field.Spelled record json

variable {default record : ρ} {name : String} {get : ρ → α} {spelling : Spelling α}

@[simp] theorem name_part : (part default name get spelling).name = name := rfl

@[simp] theorem name_required : (required name get spelling).name = name := rfl

@[simp] theorem part_omissible :
    (part default name get spelling).Omissible record ↔ get record = get default := .rfl

@[simp] theorem part_fits_none :
    (part default name get spelling).Fits record none ↔ get record = get default := .rfl

@[simp] theorem part_fits_some {json : Json} :
    (part default name get spelling).Fits record (some json) ↔ spelling (get record) json := .rfl

@[simp] theorem required_fits_some {json : Json} :
    (required name get spelling).Fits record (some json) ↔ spelling (get record) json := .rfl

end FieldRule

/-- All values that an object has under a name. -/
def valuesUnder (name : String) (members : List (String × Json)) : List Json :=
  (members.filter (·.1 = name)).map Prod.snd

@[simp] theorem valuesUnder_nil (name : String) : valuesUnder name [] = [] := rfl

@[simp] theorem valuesUnder_cons (name other : String) (value : Json)
    (rest : List (String × Json)) :
    valuesUnder name ((other, value) :: rest) =
      if other = name then value :: valuesUnder name rest else valuesUnder name rest := by
  by_cases same : other = name <;> simp [valuesUnder, same]

/-- Fields in declared order, of which those at the end may be missing. -/
inductive Listed (record : ρ) : List (FieldRule ρ) → List Json → Prop where
  | ended {fields : List (FieldRule ρ)} (rest : ∀ field ∈ fields, field.Omissible record) :
      Listed record fields []
  | written {field : FieldRule ρ} {fields : List (FieldRule ρ)} {json : Json} {elements : List Json}
      (first : field.Spelled record json) (rest : Listed record fields elements) :
      Listed record (field :: fields) (json :: elements)

/-- A record is an object in which each field stands at most once, in any order and among members
of other names, or an array of its fields. -/
inductive Spelling.Record (fields : List (FieldRule ρ)) (record : ρ) : Json → Prop where
  | object {members : List (String × Json)}
      (each : ∀ field ∈ fields, ∃ slot : Option Json,
        slot.toList = valuesUnder field.name members ∧ field.Fits record slot) :
      Record fields record (.object members)
  | array {elements : List Json} (listed : Listed record fields elements) :
      Record fields record (.array elements)

/-- What is encoded is spelled, and what is spelled is decoded as what it stands for. -/
structure Spelling.Describes (spelling : Spelling α) (encode : α → Json) (decode : Json → Option α) :
    Prop where
  written (value : α) : spelling value (encode value)
  read {value : α} {json : Json} (spelled : spelling value json) : decode json = some value

namespace Spelling

variable {spelling : Spelling α} {encode : α → Json} {decode : Json → Option α}

theorem describes_plain (decoded : ∀ value, decode (encode value) = some value) :
    (Plain encode).Describes encode decode where
  written _ := rfl
  read := by
    rintro value json rfl
    exact decoded value

theorem Describes.nullable (describes : spelling.Describes encode decode)
    (noNull : decode .null = none) :
    (Nullable spelling).Describes (ofOption encode) (optional? decode) where
  written value := by
    cases value with
    | none => rfl
    | some value => exact describes.written value
  read {value json} spelled := by
    cases value with
    | none => rw [show json = .null from spelled, optional?]
    | some value =>
      have decoded : decode json = some value := describes.read spelled
      cases json with
      | null => rw [noNull] at decoded; cases decoded
      | _ => simp [optional?, decoded]

theorem Describes.elementwise (describes : spelling.Describes encode decode) :
    (Elementwise spelling).Describes (fun values => .array (values.map encode)) (list? decode) where
  written values := by
    refine ⟨values.map encode, rfl, ?_⟩
    rw [List.forall₂_map_right_iff, List.forall₂_same]
    exact fun value _ => describes.written value
  read := by
    rintro values json ⟨elements, rfl, each⟩
    rw [list?]
    induction each with
    | nil => rfl
    | cons first _ ih => simp [describes.read first, ih]

theorem describes_string : (Plain Json.string).Describes .string string? :=
  describes_plain string?_string

theorem describes_bool : (Plain Json.bool).Describes .bool bool? := describes_plain bool?_bool

theorem describes_optionalString :
    (Nullable (Plain Json.string)).Describes (ofOption .string) (optional? string?) :=
  describes_string.nullable rfl

end Spelling

theorem lastMember?_eq_getLast? (name : String) (members : List (String × Json)) :
    lastMember? name members = (valuesUnder name members).getLast? := by
  induction members with
  | nil => rfl
  | cons member rest ih =>
    obtain ⟨other, value⟩ := member
    rw [lastMember?, ih, valuesUnder_cons]
    by_cases same : other = name
    · rw [if_pos same, if_pos same, List.getLast?_cons]
      cases (valuesUnder name rest).getLast? <;> rfl
    · rw [if_neg same, if_neg same]
      cases (valuesUnder name rest).getLast? <;> rfl

theorem lastMember?_of_forall {name : String} {value : Json} {members : List (String × Json)}
    (present : value ∈ valuesUnder name members)
    (each : ∀ other ∈ valuesUnder name members, other = value) :
    lastMember? name members = some value := by
  have nonempty : valuesUnder name members ≠ [] := List.ne_nil_of_mem present
  rw [lastMember?_eq_getLast?, List.getLast?_eq_some_getLast nonempty,
    each _ (List.getLast_mem nonempty)]

theorem valuesUnder_perm (name : String) {first second : List (String × Json)}
    (permuted : first.Perm second) : (valuesUnder name first).Perm (valuesUnder name second) :=
  (permuted.filter _).map _

theorem valuesUnder_eq_nil {name : String} {members : List (String × Json)}
    (absent : name ∉ members.map Prod.fst) : valuesUnder name members = [] := by
  rw [valuesUnder, List.map_eq_nil_iff, List.filter_eq_nil_iff]
  intro member inside
  have unequal : member.1 ≠ name := fun same => absent (same ▸ List.mem_map_of_mem inside)
  simpa using unequal

theorem valuesUnder_filter_self (name : String) (members : List (String × Json)) :
    valuesUnder name (members.filter (·.1 ≠ name)) = [] := by
  apply valuesUnder_eq_nil
  simp

theorem valuesUnder_filter_of_ne {name other : String} (distinct : other ≠ name)
    (members : List (String × Json)) :
    valuesUnder other (members.filter (·.1 ≠ name)) = valuesUnder other members := by
  rw [valuesUnder, valuesUnder, List.filter_filter]
  congr 1
  apply List.filter_congr
  intro member _
  by_cases same : member.1 = other <;> simp [same, distinct]

namespace Listed

variable {record : ρ} {fields : List (FieldRule ρ)} {elements : List Json}

theorem length_le (listed : Listed record fields elements) : elements.length ≤ fields.length := by
  induction listed with
  | ended => exact Nat.zero_le _
  | written _ _ ih => exact Nat.succ_le_succ ih

theorem fits (listed : Listed record fields elements) :
    List.Forall₂ (fun field slot => field.Fits record slot) fields
      (elements.map some ++ List.replicate (fields.length - elements.length) none) := by
  induction listed with
  | @ended fields rest =>
    have missing : List.replicate fields.length (none : Option Json) = fields.map fun _ => none := by
      rw [List.map_const']
    rw [List.map_nil, List.nil_append, List.length_nil, Nat.sub_zero, missing,
      List.forall₂_map_right_iff, List.forall₂_same]
    exact rest
  | written first _ ih =>
    simp only [List.map_cons, List.cons_append, List.length_cons, Nat.add_sub_add_right]
    exact .cons first ih

end Listed

namespace Spelling.Record

variable {fields : List (FieldRule ρ)} {record : ρ}

/-- A record may be written as the object of all its fields in declared order. -/
theorem of_listed {members : List (String × Json)} (distinct : (fields.map FieldRule.name).Nodup)
    (names : members.map Prod.fst = fields.map FieldRule.name)
    (listed : Listed record fields (members.map Prod.snd)) :
    Record fields record (.object members) := by
  constructor
  induction fields generalizing members with
  | nil => simp
  | cons first fields ih =>
    obtain _ | ⟨⟨name, json⟩, members⟩ := members
    · cases names
    obtain ⟨rfl, rest⟩ := List.cons.inj names
    obtain ⟨absent, distinct⟩ := List.nodup_cons.mp distinct
    obtain _ | ⟨spelled, listed⟩ := listed
    rw [List.forall_mem_cons]
    constructor
    · refine ⟨some json, ?_, spelled⟩
      rw [valuesUnder_cons, if_pos rfl, valuesUnder_eq_nil (rest ▸ absent), Option.toList_some]
    · intro field declared
      have other : first.name ≠ field.name :=
        fun same => absent (same ▸ List.mem_map_of_mem declared)
      rw [valuesUnder_cons, if_neg other]
      exact ih distinct rest listed field declared

/-- However a record is spelled, the slots of its fields have what was written for each. -/
theorem exists_slots {json : Json} (spelled : Record fields record json) :
    ∃ slots, slots? (fields.map FieldRule.name) json = some slots ∧
      List.Forall₂ (fun field slot => field.Fits record slot) fields slots := by
  cases spelled with
  | @object members each =>
    refine ⟨_, rfl, ?_⟩
    rw [List.map_map, List.forall₂_map_right_iff, List.forall₂_same]
    intro field declared
    obtain ⟨slot, values, fits⟩ := each field declared
    have held : lastMember? field.name members = slot := by
      rw [lastMember?_eq_getLast?, ← values]
      cases slot <;> rfl
    rw [Function.comp_apply, held]
    exact fits
  | @array elements listed =>
    have short : elements.length ≤ (fields.map FieldRule.name).length := by
      rw [List.length_map]; exact listed.length_le
    refine ⟨_, if_pos short, ?_⟩
    rw [List.length_map]
    exact listed.fits

/-- Members may be put in another order, and those of a name may go if no field needs them. -/
theorem filter_name {members kept : List (String × Json)} {name : String}
    (spelled : Record fields record (.object members))
    (omissible : ∀ field ∈ fields, field.name = name → field.Omissible record)
    (permuted : kept.Perm (members.filter (·.1 ≠ name))) :
    Record fields record (.object kept) := by
  cases spelled with
  | object each =>
    constructor
    intro field declared
    have values : (valuesUnder field.name kept).Perm
        (valuesUnder field.name (members.filter (·.1 ≠ name))) := valuesUnder_perm _ permuted
    by_cases same : field.name = name
    · rw [same, valuesUnder_filter_self, List.perm_nil] at values
      exact ⟨none, by rw [same, values, Option.toList_none], omissible field declared same⟩
    · obtain ⟨slot, under, fits⟩ := each field declared
      rw [valuesUnder_filter_of_ne same, ← under] at values
      refine ⟨slot, ?_, fits⟩
      -- one value at most leaves no choice of an order
      cases slot with
      | none => exact (List.perm_nil.mp values).symm
      | some json => exact (List.perm_singleton.mp values).symm

end Spelling.Record

theorem FieldRule.Fits.exists_written {record : ρ} {name : String} {get : ρ → α} {spelling : Spelling α}
    {slot : Option Json} (fits : (FieldRule.required name get spelling).Fits record slot) :
    ∃ json, slot = some json ∧ spelling (get record) json := by
  cases slot with
  | none => exact fits.elim
  | some json => exact ⟨json, rfl, fits⟩

/-- A decoder goes on from the slot of a field with that part of the record. -/
theorem FieldRule.Fits.bind {default record : ρ} {name : String} {get : ρ → α} {spelling : Spelling α}
    {encode : α → Json} {decode : Json → Option α} {slot : Option Json}
    (fits : (FieldRule.part default name get spelling).Fits record slot)
    (describes : spelling.Describes encode decode) {next : α → Option β} {result : Option β}
    (rest : next (get record) = result) :
    (fieldOr (get default) decode slot >>= next) = result := by
  have decoded : fieldOr (get default) decode slot = some (get record) := by
    cases slot with
    | none =>
      have same : get record = get default := fits
      rw [fieldOr, same]
    | some json => exact describes.read fits
  rw [decoded]
  exact rest

end ItemSchema.Json
