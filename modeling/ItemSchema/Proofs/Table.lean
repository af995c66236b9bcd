import ItemSchema.Table
import Mathlib.Data.List.Nodup
import Mathlib.Data.List.Perm.Basic

/-! Laws of tables: what is found after each way of writing to one.

Looking at one key at a time commutes with every write. So a table is known, up
to the order of its keys, from what it holds under each key alone.
-/

set_option autoImplicit false

namespace ItemSchema

/-- Two lists are permutations of each other once they agree on every class of elements. -/
theorem perm_of_filter_eq {α κ : Type} [DecidableEq κ] (classOf : α → κ) {first second : List α}
    (same : ∀ key, first.filter (classOf · = key) = second.filter (classOf · = key)) :
    first.Perm second := by
  classical
  rw [List.perm_iff_count]
  intro a
  have counted : ∀ elements : List α,
      (elements.filter (classOf · = classOf a)).count a = elements.count a :=
    fun elements => List.count_filter (by simp)
  rw [← counted first, ← counted second, same]

/-- The first element of every class, in order. -/
def firstOfEach {α κ : Type} [DecidableEq κ] (classOf : α → κ) : List α → List α
  | [] => []
  | first :: rest => first :: (firstOfEach classOf rest).filter (classOf · ≠ classOf first)

theorem firstOfEach_map {α β κ : Type} [DecidableEq κ] (classOf : β → κ) (f : α → β)
    (elements : List α) :
    firstOfEach classOf (elements.map f) = (firstOfEach (classOf ∘ f) elements).map f := by
  induction elements with
  | nil => rfl
  | cons first rest ih => simp [firstOfEach, ih, List.filter_map, Function.comp_def]

theorem firstOfEach_sublist {α κ : Type} [DecidableEq κ] (classOf : α → κ) (elements : List α) :
    (firstOfEach classOf elements).Sublist elements := by
  induction elements with
  | nil => exact .slnil
  | cons first rest ih => exact (List.filter_sublist.trans ih).cons_cons first

section FirstOfEach

variable {α κ : Type} [DecidableEq κ]

/-- What the later elements add is the first one of every class that is not among the earlier ones. -/
theorem firstOfEach_append (classOf : α → κ) (earlier later : List α) :
    firstOfEach classOf (earlier ++ later) =
      firstOfEach classOf earlier ++
        (firstOfEach classOf later).filter (classOf · ∉ earlier.map classOf) := by
  induction earlier with
  | nil => simp [firstOfEach]
  | cons first rest ih =>
    simp only [List.cons_append, firstOfEach, ih, List.filter_append, List.filter_filter,
      List.map_cons, List.mem_cons, not_or, Bool.decide_and]

theorem firstOfEach_append_self (classOf : α → κ) (elements : List α) :
    firstOfEach classOf (elements ++ elements) = firstOfEach classOf elements := by
  have known : (firstOfEach classOf elements).filter (classOf · ∉ elements.map classOf) = [] := by
    rw [List.filter_eq_nil_iff]
    intro element member
    simpa using ⟨element, (firstOfEach_sublist _ _).subset member, rfl⟩
  rw [firstOfEach_append, known, List.append_nil]

theorem firstOfEach_congr {classOf other : α → κ} {elements : List α}
    (same : ∀ element ∈ elements, classOf element = other element) :
    firstOfEach classOf elements = firstOfEach other elements := by
  induction elements with
  | nil => rfl
  | cons first rest ih =>
    have sameRest : ∀ element ∈ rest, classOf element = other element :=
      fun element member => same element (List.mem_cons_of_mem _ member)
    rw [firstOfEach, firstOfEach, ih sameRest]
    congr 1
    apply List.filter_congr
    intro element member
    rw [same first List.mem_cons_self, sameRest element ((firstOfEach_sublist _ _).subset member)]

theorem nodup_map_firstOfEach (classOf : α → κ) (elements : List α) :
    ((firstOfEach classOf elements).map classOf).Nodup := by
  induction elements with
  | nil => exact List.nodup_nil
  | cons first rest ih =>
    have others : (firstOfEach classOf rest).filter (classOf · ≠ classOf first) |>.Sublist
        (firstOfEach classOf rest) := List.filter_sublist
    rw [firstOfEach, List.map_cons, List.nodup_cons]
    exact ⟨by simp, (others.map classOf).nodup ih⟩

/-- What is kept of a class is its first element. -/
theorem filter_firstOfEach (classOf : α → κ) (elements : List α) (key : κ) :
    (firstOfEach classOf elements).filter (classOf · = key) =
      (elements.filter (classOf · = key)).head?.toList := by
  induction elements with
  | nil => rfl
  | cons first rest ih =>
    rw [firstOfEach]
    by_cases own : classOf first = key
    · subst own
      simp [List.filter_filter]
    · have others : ((firstOfEach classOf rest).filter (classOf · ≠ classOf first)).filter
          (classOf · = key) = (firstOfEach classOf rest).filter (classOf · = key) := by
        rw [List.filter_filter]
        apply List.filter_congr
        intro other _
        by_cases same : classOf other = key <;> simp [same, Ne.symm own]
      rw [List.filter_cons_of_neg (by simpa using own), others, ih,
        List.filter_cons_of_neg (by simpa using own)]

theorem find?_firstOfEach (classOf : α → κ) (elements : List α) (key : κ) :
    (firstOfEach classOf elements).find? (classOf · = key) = elements.find? (classOf · = key) := by
  rw [← List.head?_filter, filter_firstOfEach, ← List.head?_filter]
  cases (elements.filter (classOf · = key)).head? <;> rfl

/-- Where all classes differ, an element is the one that is found by its class. -/
theorem find?_of_nodup_map {classOf : α → κ} {elements : List α}
    (distinct : (elements.map classOf).Nodup) {element : α} (member : element ∈ elements) :
    elements.find? (classOf · = classOf element) = some element := by
  cases found : elements.find? (classOf · = classOf element) with
  | none => simpa using List.find?_eq_none.mp found element member
  | some other =>
    have same : classOf other = classOf element := by simpa using List.find?_some found
    rw [List.inj_on_of_nodup_map distinct (List.mem_of_find?_eq_some found) member same]

end FirstOfEach

namespace Table

variable {κ α : Type} [DecidableEq κ]

theorem lookup_eq_head?_filter (key : κ) (entries : List (κ × α)) :
    lookup key entries = (entries.filter (·.1 = key)).head?.map Prod.snd := by
  induction entries with
  | nil => rfl
  | cons entry rest ih =>
    obtain ⟨other, value⟩ := entry
    by_cases same : other = key <;> simp [lookup, same, ih]

theorem mem_place {key : κ} {value : α} {entries : List (κ × α)} {entry : κ × α}
    (member : entry ∈ place key value entries) : entry = (key, value) ∨ entry ∈ entries := by
  induction entries with
  | nil => exact .inl (List.mem_singleton.mp member)
  | cons first rest ih =>
    obtain ⟨other, old⟩ := first
    rw [place] at member
    split at member
    · rcases List.mem_cons.mp member with placed | later
      · exact .inl placed
      · exact .inr (List.mem_cons_of_mem _ later)
    · rcases List.mem_cons.mp member with kept | later
      · exact .inr (kept ▸ List.mem_cons_self)
      · exact (ih later).imp_right (List.mem_cons_of_mem _)

theorem lookup_filter (keep : κ → Bool) (key : κ) (entries : List (κ × α)) :
    lookup key (entries.filter fun entry => keep entry.1) =
      if keep key then lookup key entries else none := by
  induction entries with
  | nil => simp [lookup]
  | cons entry rest ih =>
    obtain ⟨other, value⟩ := entry
    by_cases same : other = key
    · subst same
      cases kept : keep other <;> simp [lookup, kept, ih]
    · cases kept : keep other <;> simp [lookup, kept, same, ih]

theorem filter_place (keep : κ → Bool) (key : κ) (value : α) (entries : List (κ × α)) :
    (place key value entries).filter (fun entry => keep entry.1) =
      if keep key then place key value (entries.filter fun entry => keep entry.1)
      else entries.filter fun entry => keep entry.1 := by
  induction entries with
  | nil => cases kept : keep key <;> simp [place, kept]
  | cons entry rest ih =>
    obtain ⟨other, old⟩ := entry
    by_cases same : other = key
    · subst same
      cases kept : keep other <;> simp [place, kept]
    · cases keptKey : keep key <;> cases keptOther : keep other <;>
        simp [place, same, keptKey, keptOther, ih]

/-- Writing a value made from the present one changes the entry in its place; a new key goes to
the end. -/
theorem place_update (key : κ) (update : α → α) (missing : α) (entries : List (κ × α))
    (distinct : (entries.map Prod.fst).Nodup) :
    place key (update ((lookup key entries).getD missing)) entries =
      if key ∈ entries.map Prod.fst then
        entries.map fun entry => if entry.1 = key then (key, update entry.2) else entry
      else entries ++ [(key, update missing)] := by
  induction entries with
  | nil => simp [place, lookup]
  | cons entry rest ih =>
    obtain ⟨other, old⟩ := entry
    simp only [List.map_cons, List.nodup_cons] at distinct
    by_cases same : other = key
    · subst same
      have others : rest.map (fun entry => if entry.1 = other then (other, update entry.2) else entry)
          = rest := by
        refine (List.map_congr_left fun entry member => ?_).trans (List.map_id rest)
        have unequal : entry.1 ≠ other := by
          intro equal
          exact distinct.1 (equal ▸ List.mem_map_of_mem member)
        exact if_neg unequal
      simp [place, lookup, others]
    · have later := ih distinct.2
      by_cases present : key ∈ rest.map Prod.fst <;>
        simp_all [place, lookup, Ne.symm same]

theorem find?_filterKeys (table : Table κ α) (keep : κ → Bool) (key : κ) :
    (table.filterKeys keep).find? key = if keep key then table.find? key else none :=
  lookup_filter keep key table.entries

theorem find?_insert (table : Table κ α) (key asked : κ) (value : α) :
    (table.insert key value).find? asked = if key = asked then some value else table.find? asked := by
  by_cases same : key = asked
  · subst same; simp
  · simp [same, find?_insert_of_ne table same]

theorem find?_insertIfNew (table : Table κ α) (key asked : κ) (value : α) :
    (table.insertIfNew key value).find? asked =
      (table.find? asked <|> if key = asked then some value else none) := by
  unfold insertIfNew contains
  by_cases same : key = asked
  · subst same
    cases known : table.find? key <;> simp [known]
  · cases known : table.find? key <;> simp [same, find?_insert]

/-- The last value written to a key is the one that is found. -/
theorem find?_insertAll (table : Table κ α) (entries : List (κ × α)) (key : κ) :
    (table.insertAll entries).find? key =
      (((entries.filter (·.1 = key)).getLast?.map Prod.snd) <|> table.find? key) := by
  induction entries generalizing table with
  | nil => simp [insertAll]
  | cons entry rest ih =>
    have unfolded : table.insertAll (entry :: rest) = (table.insert entry.1 entry.2).insertAll rest := rfl
    rw [unfolded, ih, find?_insert]
    by_cases same : entry.1 = key
    · cases last : (rest.filter (·.1 = key)).getLast? <;> simp [same, last, List.getLast?_cons]
    · simp [same]

theorem place_of_not_mem (key : κ) (value : α) (entries : List (κ × α))
    (absent : key ∉ entries.map Prod.fst) : place key value entries = entries ++ [(key, value)] := by
  induction entries with
  | nil => rfl
  | cons entry rest ih =>
    obtain ⟨other, old⟩ := entry
    simp only [List.map_cons, List.mem_cons, not_or] at absent
    simp [place, Ne.symm absent.1, ih absent.2]

theorem entries_insertIfNew (table : Table κ α) (key : κ) (value : α) :
    (table.insertIfNew key value).entries =
      if table.contains key then table.entries else table.entries ++ [(key, value)] := by
  cases known : table.contains key with
  | true => simp [insertIfNew, known]
  | false =>
    have absent : key ∉ table.entries.map Prod.fst := by
      intro present
      rw [(table.contains_iff_mem_keys key).mpr present] at known
      cases known
    simp [insertIfNew, known, insert, place_of_not_mem _ _ _ absent]

/-- Offered entries are added in order, the first one of each key that the table does not have. -/
theorem entries_insertAllIfNew (table : Table κ α) (offered : List (κ × α)) :
    (table.insertAllIfNew offered).entries =
      table.entries ++ (firstOfEach Prod.fst offered).filter (!table.contains ·.1) := by
  induction offered generalizing table with
  | nil => simp [insertAllIfNew, firstOfEach]
  | cons entry rest ih =>
    have unfolded : table.insertAllIfNew (entry :: rest) =
        (table.insertIfNew entry.1 entry.2).insertAllIfNew rest := rfl
    rw [unfolded, ih, firstOfEach]
    cases known : table.contains entry.1 with
    | true =>
      simp only [insertIfNew, known, if_true, List.filter_cons, Bool.not_true, Bool.false_eq_true,
        if_false, List.filter_filter]
      congr 1
      apply List.filter_congr
      intro other _
      by_cases same : other.1 = entry.1 <;> simp [same, known]
    | false =>
      have added : (table.insertIfNew entry.1 entry.2).entries = table.entries ++ [entry] := by
        simp [entries_insertIfNew, known]
      rw [added]
      simp only [known, List.filter_cons, Bool.not_false, if_true, List.filter_filter,
        List.append_assoc, List.singleton_append]
      congr 2
      apply List.filter_congr
      intro other _
      by_cases same : other.1 = entry.1
      · simp [same, contains, find?_insertIfNew]
      · simp [same, Ne.symm same, contains, find?_insertIfNew]

theorem filterKeys_insert (table : Table κ α) (keep : κ → Bool) (key : κ) (value : α) :
    (table.insert key value).filterKeys keep =
      if keep key then (table.filterKeys keep).insert key value else table.filterKeys keep := by
  have placed := filter_place keep key value table.entries
  cases kept : keep key <;> simp_all [insert, filterKeys]

theorem filterKeys_insertIfNew (table : Table κ α) (keep : κ → Bool) (key : κ) (value : α) :
    (table.insertIfNew key value).filterKeys keep =
      if keep key then (table.filterKeys keep).insertIfNew key value else table.filterKeys keep := by
  have contained : keep key → (table.filterKeys keep).contains key = table.contains key := by
    intro kept
    simp [contains, find?_filterKeys, kept]
  unfold insertIfNew
  cases known : table.contains key <;> cases kept : keep key <;>
    simp_all [filterKeys_insert]

omit [DecidableEq κ] in
theorem length_keys (table : Table κ α) : table.keys.length = table.size :=
  List.length_map _

omit [DecidableEq κ] in
theorem keys_filterKeys (table : Table κ α) (keep : κ → Bool) :
    (table.filterKeys keep).keys = table.keys.filter keep :=
  List.filter_map.symm

theorem nodup_keys_insert {table : Table κ α} (distinct : table.keys.Nodup) (key : κ) (value : α) :
    (table.insert key value).keys.Nodup := by
  rw [keys_insert]
  split
  · exact distinct
  · next absent => simpa using List.Nodup.concat absent distinct

theorem nodup_keys_insertIfNew {table : Table κ α} (distinct : table.keys.Nodup) (key : κ)
    (value : α) : (table.insertIfNew key value).keys.Nodup := by
  unfold insertIfNew
  split
  · exact distinct
  · exact nodup_keys_insert distinct key value

/-- Under distinct keys every entry is the one that is found. -/
theorem find?_of_mem_entries {table : Table κ α} (distinct : table.keys.Nodup) {key : κ} {value : α}
    (member : (key, value) ∈ table.entries) : table.find? key = some value := by
  obtain ⟨entries⟩ := table
  simp only [keys, find?] at distinct member ⊢
  induction entries with
  | nil => cases member
  | cons entry rest ih =>
    obtain ⟨other, old⟩ := entry
    simp only [List.map_cons, List.nodup_cons] at distinct
    rcases List.mem_cons.mp member with own | later
    · cases own
      simp [lookup]
    · have unequal : other ≠ key := by
        rintro rfl
        exact distinct.1 (List.mem_map_of_mem later)
      rw [lookup, if_neg unequal, ih distinct.2 later]

omit [DecidableEq κ] in
theorem nodup_keys_filterKeys {table : Table κ α} (distinct : table.keys.Nodup) (keep : κ → Bool) :
    (table.filterKeys keep).keys.Nodup := by
  rw [keys_filterKeys]
  exact distinct.filter keep

def slice (table : Table κ α) (key : κ) : Table κ α := table.filterKeys (· = key)

@[simp] theorem find?_slice (table : Table κ α) (key : κ) : (table.slice key).find? key = table.find? key := by
  simp [slice, find?_filterKeys]

@[simp] theorem contains_slice (table : Table κ α) (key : κ) :
    (table.slice key).contains key = table.contains key := by
  simp [contains]

@[simp] theorem slice_insert_self (table : Table κ α) (key : κ) (value : α) :
    (table.insert key value).slice key = (table.slice key).insert key value := by
  simp [slice, filterKeys_insert]

theorem slice_insert_of_ne (table : Table κ α) {key other : κ} (distinct : key ≠ other) (value : α) :
    (table.insert key value).slice other = table.slice other := by
  simp [slice, filterKeys_insert, distinct]

theorem slice_insertIfNew (table : Table κ α) (key other : κ) (value : α) :
    (table.insertIfNew key value).slice other =
      if key = other then (table.slice other).insertIfNew key value else table.slice other := by
  simp [slice, filterKeys_insertIfNew]

theorem find?_eq_of_slice_eq {first second : Table κ α} {key : κ}
    (same : first.slice key = second.slice key) : first.find? key = second.find? key := by
  rw [← find?_slice first, same, find?_slice]

/-- Tables with the same slices hold the same entries, in some order. -/
theorem entries_perm_of_slice_eq {first second : Table κ α}
    (same : ∀ key, first.slice key = second.slice key) : first.entries.Perm second.entries :=
  perm_of_filter_eq Prod.fst fun key => congrArg entries (same key)

end Table

end ItemSchema
