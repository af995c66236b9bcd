import ItemSchema.Proofs.Table.Collected

/-! Tables filled a second time from the same list.

The keys are all there after the first time, and stay in their places. So the table
changes only by what becomes of each value when the parts that made it come once
more. Parts that overwrite a value or are kept out by one make the same value again.
-/

set_option autoImplicit false

namespace ItemSchema

attribute [ext] Table

namespace Table

section Values

variable {κ α β : Type}

/-- The table with changed values under the same keys. -/
def mapValues (change : α → β) (table : Table κ α) : Table κ β :=
  ⟨table.entries.map fun entry => (entry.1, change entry.2)⟩

@[simp] theorem mapValues_id (table : Table κ α) : table.mapValues id = table := by
  simp [mapValues]

@[simp] theorem keys_mapValues (change : α → β) (table : Table κ α) :
    (table.mapValues change).keys = table.keys := by
  simp [mapValues, keys, Function.comp_def]

@[simp] theorem size_mapValues (change : α → β) (table : Table κ α) :
    (table.mapValues change).size = table.size := by
  simp [mapValues, size]

variable [DecidableEq κ]

@[simp] theorem find?_mapValues (change : α → β) (table : Table κ α) (key : κ) :
    (table.mapValues change).find? key = (table.find? key).map change := by
  obtain ⟨entries⟩ := table
  simp only [mapValues, find?]
  induction entries with
  | nil => rfl
  | cons entry rest ih =>
    obtain ⟨other, value⟩ := entry
    by_cases same : other = key <;> simp [lookup, same, ih]

theorem mapValues_insertIfNew (change : α → β) (table : Table κ α) (key : κ) (value : α) :
    (table.insertIfNew key value).mapValues change =
      (table.mapValues change).insertIfNew key (change value) := by
  have known : (table.mapValues change).contains key = table.contains key := by
    simp [contains]
  ext1
  rw [entries_insertIfNew, known, mapValues, entries_insertIfNew]
  split <;> simp [mapValues]

/-- Under distinct keys a table is told by its keys and by what is found under them. -/
theorem eq_of_find?_eq {first second : Table κ α} (sameKeys : first.keys = second.keys)
    (distinct : first.keys.Nodup) (same : ∀ key, first.find? key = second.find? key) :
    first = second := by
  have told : ∀ {table : Table κ α}, table.keys.Nodup →
      table.entries = table.keys.filterMap fun key => (table.find? key).map (key, ·) := by
    intro table distinct
    rw [keys, List.filterMap_map]
    refine List.filterMap_some.symm.trans (List.filterMap_congr fun entry member => ?_)
    simp [find?_of_mem_entries distinct member]
  ext1
  rw [told distinct, told (sameKeys ▸ distinct), sameKeys]
  simp only [same]

end Values

variable {κ α β : Type} [DecidableEq κ]

/-- Where the parts of a key, coming once more, change every value they have made in the same way,
the whole table is changed in this way. -/
theorem foldl_revise_append_self (keyOf : β → κ) {update : Option α → β → α} (change : α → α)
    (again : ∀ own, revised update (own ++ own) none = (revised update own none).map change)
    (parts : List β) :
    (parts ++ parts).foldl (revise keyOf update) empty =
      (parts.foldl (revise keyOf update) empty).mapValues change := by
  refine eq_of_find?_eq ?_ (nodup_keys_foldl_revise keyOf update _) fun key => ?_
  · rw [keys_mapValues, keys_foldl_revise, keys_foldl_revise, List.map_append,
      firstOfEach_append_self]
  · rw [find?_mapValues, find?_foldl_revise, find?_foldl_revise, List.filter_append]
    exact again _

theorem foldl_revise_append_self_eq (keyOf : β → κ) {update : Option α → β → α}
    (again : ∀ own, revised update (own ++ own) none = revised update own none) (parts : List β) :
    (parts ++ parts).foldl (revise keyOf update) empty = parts.foldl (revise keyOf update) empty := by
  rw [foldl_revise_append_self keyOf id (by simpa using again), mapValues_id]

theorem revised_merge_append_self (start : β → α) (step : α → β → α) (change : α → α)
    (again : ∀ (first : β) (own : List β),
      (own ++ own).foldl step (start first) = change (own.foldl step (start first))) (own : List β) :
    revised (fun known part => step (known.getD (start part)) part) (own ++ own) none =
      (revised (fun known part => step (known.getD (start part)) part) own none).map change := by
  rw [revised_merge, revised_merge, List.head?_append, Option.or_self, Option.map_map]
  simp only [again]
  rfl

theorem revised_keep_append_self (make : β → α) (own : List β) :
    revised (fun known part => known.getD (make part)) (own ++ own) none =
      revised (fun known part => known.getD (make part)) own none := by
  rw [revised_keep, revised_keep, List.head?_append, Option.or_self]

theorem revised_overwrite_append_self (make : β → α) (own : List β) :
    revised (fun _ part => make part) (own ++ own) none =
      revised (fun _ part => make part) own none := by
  rw [revised_overwrite, revised_overwrite, List.getLast?_append, Option.or_self]

theorem insertAll_append_self (entries : List (κ × α)) :
    empty.insertAll (entries ++ entries) = empty.insertAll entries :=
  foldl_revise_append_self_eq Prod.fst (revised_overwrite_append_self Prod.snd) entries

theorem insertAllIfNew_append_self (entries : List (κ × α)) :
    empty.insertAllIfNew (entries ++ entries) = empty.insertAllIfNew entries := by
  rw [insertAllIfNew_eq_foldl_revise, insertAllIfNew_eq_foldl_revise]
  exact foldl_revise_append_self_eq Prod.fst (revised_keep_append_self Prod.snd) entries

end Table

end ItemSchema
