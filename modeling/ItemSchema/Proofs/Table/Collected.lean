import ItemSchema.Proofs.Table
import Mathlib.Data.List.Induction

/-! Tables filled from a list, part by part.

Every way to write to a table replaces what stands under one key by something made
from it. So a table filled from a list has the names of the parts as keys, in the
order in which they first occur, and under each name what the parts of that name
alone have made, in order.
-/

set_option autoImplicit false

namespace ItemSchema

section Names

variable {κ : Type} [DecidableEq κ]

@[simp] theorem mem_firstOfEach_id (name : κ) (names : List κ) :
    name ∈ firstOfEach id names ↔ name ∈ names := by
  induction names with
  | nil => simp [firstOfEach]
  | cons first rest ih => by_cases same : name = first <;> simp [firstOfEach, same, ih]

theorem nodup_firstOfEach_id (names : List κ) : (firstOfEach id names).Nodup := by
  simpa using nodup_map_firstOfEach id names

/-- A name that occurred before adds nothing, and a new one goes to the end. -/
theorem firstOfEach_id_concat (names : List κ) (last : κ) :
    firstOfEach id (names ++ [last]) =
      if last ∈ names then firstOfEach id names else firstOfEach id names ++ [last] := by
  rw [firstOfEach_append]
  by_cases known : last ∈ names <;> simp [firstOfEach, known]

end Names

section FilterMap

variable {σ β : Type} {make? : σ → Option β} {parts : List σ}

theorem head?_filterMap_of_isSome (made : ∀ part ∈ parts, (make? part).isSome) :
    (parts.filterMap make?).head? = parts.head?.bind make? := by
  cases parts with
  | nil => rfl
  | cons first rest =>
    obtain ⟨built, isBuilt⟩ := Option.isSome_iff_exists.mp (made first List.mem_cons_self)
    simp [isBuilt]

theorem getLast?_filterMap_of_isSome (made : ∀ part ∈ parts, (make? part).isSome) :
    (parts.filterMap make?).getLast? = parts.getLast?.bind make? := by
  cases parts using List.reverseRecOn with
  | nil => rfl
  | append_singleton rest last =>
    obtain ⟨built, isBuilt⟩ := Option.isSome_iff_exists.mp (made last (by simp))
    simp [isBuilt]

end FilterMap

namespace Table

variable {κ α β σ : Type} [DecidableEq κ]

theorem insert_of_find? {table : Table κ α} {key : κ} {value : α} (found : table.find? key = some value) :
    table.insert key value = table := by
  obtain ⟨entries⟩ := table
  simp only [find?, insert, mk.injEq] at found ⊢
  induction entries with
  | nil => cases found
  | cons entry rest ih =>
    obtain ⟨other, old⟩ := entry
    by_cases same : other = key
    · simp_all [lookup, place]
    · simp only [lookup, if_neg same] at found
      simp [place, same, ih found]

theorem insertIfNew_eq_insert (table : Table κ α) (key : κ) (value : α) :
    table.insertIfNew key value = table.insert key ((table.find? key).getD value) := by
  cases found : table.find? key with
  | none => simp [insertIfNew, contains, found]
  | some old => simp [insertIfNew, contains, found, insert_of_find? found]

/-- Replace what is under the key of a part by what the part makes of it. -/
def revise (keyOf : β → κ) (update : Option α → β → α) (table : Table κ α) (part : β) : Table κ α :=
  table.insert (keyOf part) (update (table.find? (keyOf part)) part)

theorem insertAllIfNew_eq_foldl_revise (table : Table κ α) (entries : List (κ × α)) :
    table.insertAllIfNew entries =
      entries.foldl (revise Prod.fst fun known entry => known.getD entry.2) table := by
  simp only [insertAllIfNew, insertIfNew_eq_insert]
  rfl

/-- What a list of parts makes of a value, one after another. -/
def revised (update : Option α → β → α) (parts : List β) (known : Option α) : Option α :=
  parts.foldl (fun known part => some (update known part)) known

section Fill

variable (keyOf : β → κ) (update : Option α → β → α)

/-- A key depends on the parts under it alone. -/
theorem find?_foldl_revise (parts : List β) (table : Table κ α) (key : κ) :
    (parts.foldl (revise keyOf update) table).find? key =
      revised update (parts.filter (keyOf · = key)) (table.find? key) := by
  induction parts generalizing table with
  | nil => rfl
  | cons part rest ih =>
    rw [List.foldl_cons, ih, revise, find?_insert]
    by_cases own : keyOf part = key
    · subst own
      simp [revised]
    · simp [own]

theorem keys_foldl_revise (parts : List β) :
    (parts.foldl (revise keyOf update) empty).keys = firstOfEach id (parts.map keyOf) := by
  induction parts using List.reverseRecOn with
  | nil => rfl
  | append_singleton parts last ih =>
    rw [List.foldl_append, List.foldl_cons, List.foldl_nil, revise, keys_insert, ih, List.map_append,
      List.map_singleton, firstOfEach_id_concat]
    simp only [mem_firstOfEach_id]

theorem nodup_keys_foldl_revise (parts : List β) :
    (parts.foldl (revise keyOf update) empty).keys.Nodup := by
  rw [keys_foldl_revise]
  exact nodup_firstOfEach_id _

end Fill

/-- Merging into a record that starts empty: the first part starts it, and all parts go into it. -/
theorem revised_merge (start : β → α) (step : α → β → α) (parts : List β) :
    revised (fun known part => step (known.getD (start part)) part) parts none =
      parts.head?.map fun first => parts.foldl step (start first) := by
  have going : ∀ (rest : List β) (value : α),
      revised (fun known part => step (known.getD (start part)) part) rest (some value) =
        some (rest.foldl step value) := by
    intro rest
    induction rest with
    | nil => exact fun value => rfl
    | cons part rest ih => exact fun value => ih (step value part)
  cases parts with
  | nil => rfl
  | cons first rest => exact going rest (step (start first) first)

/-- Where a known value is kept, the first part makes it. -/
theorem revised_keep (make : β → α) (parts : List β) :
    revised (fun known part => known.getD (make part)) parts none = parts.head?.map make := by
  rw [revised_merge make fun value _ => value]
  simp

/-- Where a known value is overwritten, the last part makes it. -/
theorem revised_overwrite (make : β → α) (parts : List β) :
    revised (fun _ part => make part) parts none = parts.getLast?.map make := by
  cases parts using List.reverseRecOn with
  | nil => rfl
  | append_singleton rest last => simp [revised]

/-- A table with one key for every name that a part goes by, in the order in which the names first
occur. Under each name stands what a rule makes of all the parts of that name. -/
structure Collects (table : Table κ α) (nameOf : σ → Option κ) (rule : List σ → α → Prop)
    (parts : List σ) : Prop where
  keys_eq : table.keys = firstOfEach id (parts.filterMap nameOf)
  holds : ∀ name value, table.find? name = some value →
    rule (parts.filter (nameOf · = some name)) value

/-- A table of records: there is one for every name that a part has, it has that name, and a rule
makes it of all the parts of the name. The records stand in the order in which their names first
occur. -/
structure Records (table : Table κ α) (nameOf : σ → κ) (recordName : α → κ)
    (rule : List σ → α → Prop) (parts : List σ) : Prop where
  contains_iff : ∀ name, table.contains name ↔ parts.filter (nameOf · = name) ≠ []
  named : ∀ name record, table.find? name = some record → recordName record = name
  holds : ∀ name record, table.find? name = some record → rule (parts.filter (nameOf · = name)) record
  listed : table.values.map recordName = firstOfEach id (parts.map nameOf)

/-- A name without a record is the name of no part. -/
theorem Records.filter_eq_nil {table : Table κ α} {nameOf : σ → κ} {recordName : α → κ}
    {rule : List σ → α → Prop} {parts : List σ} (records : table.Records nameOf recordName rule parts)
    {name : κ} (unknown : table.find? name = none) : parts.filter (nameOf · = name) = [] := by
  by_contra known
  have held := (records.contains_iff name).mpr known
  simp [contains, unknown] at held

/-- Parts that give nothing to write have no name. -/
theorem collects_foldl_revise {make? : σ → Option β} {keyOf : β → κ} {nameOf : σ → Option κ}
    (named : ∀ part, (make? part).map keyOf = nameOf part) {update : Option α → β → α}
    {rule : List σ → α → Prop}
    (settles : ∀ (own : List σ) (value : α), (∀ part ∈ own, (make? part).isSome) →
      revised update (own.filterMap make?) none = some value → rule own value) (parts : List σ) :
    ((parts.filterMap make?).foldl (revise keyOf update) empty).Collects nameOf rule parts where
  keys_eq := by
    have names : (parts.filterMap make?).map keyOf = parts.filterMap nameOf := by
      rw [List.map_filterMap]
      exact congrArg (parts.filterMap ·) (funext named)
    rw [keys_foldl_revise, names]
  holds name value found := by
    have own : (parts.filterMap make?).filter (keyOf · = name) =
        (parts.filter (nameOf · = some name)).filterMap make? := by
      rw [List.filter_filterMap, List.filterMap_filter]
      congr 1
      funext part
      rw [← named part]
      cases make? part with
      | none => simp
      | some built => by_cases same : keyOf built = name <;> simp [same]
    rw [find?_foldl_revise, own] at found
    refine settles _ value ?_ found
    intro part member
    have given : nameOf part = some name := by simpa using (List.mem_filter.mp member).2
    rw [← named part, Option.map_eq_some_iff] at given
    obtain ⟨built, made, _⟩ := given
    simp [made]

/-- Where every entry is written, the last part of a name stands. -/
theorem collects_insertAll {make? : σ → Option (κ × α)} {nameOf : σ → Option κ}
    (named : ∀ part, (make? part).map Prod.fst = nameOf part) {rule : List σ → α → Prop}
    (settles : ∀ (own : List σ) (last : σ) (entry : κ × α), own.getLast? = some last →
      make? last = some entry → rule own entry.2) (parts : List σ) :
    (empty.insertAll (parts.filterMap make?)).Collects nameOf rule parts := by
  have filled : (empty.insertAll (parts.filterMap make?) : Table κ α) =
      (parts.filterMap make?).foldl (revise Prod.fst fun _ entry => entry.2) empty := rfl
  rw [filled]
  refine collects_foldl_revise named (fun own value made settled => ?_) parts
  rw [revised_overwrite, getLast?_filterMap_of_isSome made] at settled
  obtain ⟨entry, isEntry, rfl⟩ := Option.map_eq_some_iff.mp settled
  obtain ⟨last, isLast, given⟩ := Option.bind_eq_some_iff.mp isEntry
  exact settles own last entry isLast given

/-- Where an entry is written only under a new key, the first part of a name stands. -/
theorem collects_insertAllIfNew {make? : σ → Option (κ × α)} {nameOf : σ → Option κ}
    (named : ∀ part, (make? part).map Prod.fst = nameOf part) {rule : List σ → α → Prop}
    (settles : ∀ (own : List σ) (first : σ) (entry : κ × α), own.head? = some first →
      make? first = some entry → rule own entry.2) (parts : List σ) :
    (empty.insertAllIfNew (parts.filterMap make?)).Collects nameOf rule parts := by
  rw [insertAllIfNew_eq_foldl_revise]
  refine collects_foldl_revise named (fun own value made settled => ?_) parts
  rw [revised_keep, head?_filterMap_of_isSome made] at settled
  obtain ⟨entry, isEntry, rfl⟩ := Option.map_eq_some_iff.mp settled
  obtain ⟨first, isFirst, given⟩ := Option.bind_eq_some_iff.mp isEntry
  exact settles own first entry isFirst given

/-- A table of records is filled from parts that all have a name. -/
theorem records_foldl_revise {nameOf : σ → κ} {recordName : α → κ} {update : Option α → σ → α}
    {rule : List σ → α → Prop}
    (settles : ∀ (name : κ) (own : List σ) (record : α), (∀ part ∈ own, nameOf part = name) →
      revised update own none = some record → recordName record = name ∧ rule own record)
    (parts : List σ) :
    (parts.foldl (revise nameOf update) empty).Records nameOf recordName rule parts := by
  have keys := keys_foldl_revise nameOf update parts
  have settled : ∀ name record,
      (parts.foldl (revise nameOf update) empty).find? name = some record →
        recordName record = name ∧ rule (parts.filter (nameOf · = name)) record := by
    intro name record found
    rw [find?_foldl_revise] at found
    exact settles name _ record (fun part member => by simpa using (List.mem_filter.mp member).2) found
  refine ⟨?_, fun name record found => (settled name record found).1,
    fun name record found => (settled name record found).2, ?_⟩
  · intro name
    rw [contains_iff_mem_keys, keys, mem_firstOfEach_id]
    simp
  · have distinct := nodup_keys_foldl_revise nameOf update parts
    rw [← keys, values, Table.keys, List.map_map]
    apply List.map_congr_left
    intro entry member
    exact (settled entry.1 entry.2 (find?_of_mem_entries distinct member)).1

/-- Where every part is merged into the record of its name, all parts of the name go into a record
that starts empty. -/
theorem records_foldl_merge {nameOf : σ → κ} {recordName : α → κ} {rule : List σ → α → Prop}
    (start : κ → α) (step : α → σ → α)
    (settles : ∀ name own, recordName (own.foldl step (start name)) = name ∧
      rule own (own.foldl step (start name))) (parts : List σ) :
    (parts.foldl (revise nameOf fun known part => step (known.getD (start (nameOf part))) part)
      empty).Records nameOf recordName rule parts := by
  refine records_foldl_revise (fun name own record named settled => ?_) parts
  rw [revised_merge fun part => start (nameOf part)] at settled
  obtain ⟨first, isFirst, rfl⟩ := Option.map_eq_some_iff.mp settled
  rw [named first (List.mem_of_head? isFirst)]
  exact settles name own

/-- Where a known record is kept, the first part of a name makes it. -/
theorem records_foldl_keep {nameOf : σ → κ} {recordName : α → κ} {rule : List σ → α → Prop}
    (make : σ → α) (named : ∀ part, recordName (make part) = nameOf part)
    (settles : ∀ own first, own.head? = some first → rule own (make first)) (parts : List σ) :
    (parts.foldl (revise nameOf fun known part => known.getD (make part)) empty).Records nameOf
      recordName rule parts := by
  refine records_foldl_revise (fun name own record same settled => ?_) parts
  rw [revised_keep] at settled
  obtain ⟨first, isFirst, rfl⟩ := Option.map_eq_some_iff.mp settled
  exact ⟨(named first).trans (same first (List.mem_of_head? isFirst)), settles own first isFirst⟩

end Table

end ItemSchema
