/-! Tables that remember the order in which their keys arrived.

Writing to a key that is present replaces its value and keeps its place; a new
key goes to the end. The list of entries is the whole table, so two tables that
answer alike in the same order are equal.
-/

set_option autoImplicit false

namespace ItemSchema

structure Table (κ α : Type) where
  entries : List (κ × α) := []
  deriving DecidableEq, Repr

namespace Table

variable {κ α β : Type}

def empty : Table κ α := {}

def keys (table : Table κ α) : List κ := table.entries.map Prod.fst

def values (table : Table κ α) : List α := table.entries.map Prod.snd

def size (table : Table κ α) : Nat := table.entries.length

variable [DecidableEq κ]

/-- The value of the first entry under a key. -/
def lookup (key : κ) : List (κ × α) → Option α
  | [] => none
  | (other, value) :: rest => if other = key then some value else lookup key rest

/-- Replace the first entry under a key, or add an entry at the end. -/
def place (key : κ) (value : α) : List (κ × α) → List (κ × α)
  | [] => [(key, value)]
  | (other, old) :: rest =>
      if other = key then (key, value) :: rest else (other, old) :: place key value rest

def find? (table : Table κ α) (key : κ) : Option α := lookup key table.entries

def contains (table : Table κ α) (key : κ) : Bool := (table.find? key).isSome

def insert (table : Table κ α) (key : κ) (value : α) : Table κ α :=
  ⟨place key value table.entries⟩

/-- Add an entry unless the key is present. -/
def insertIfNew (table : Table κ α) (key : κ) (value : α) : Table κ α :=
  if table.contains key then table else table.insert key value

def filterKeys (table : Table κ α) (keep : κ → Bool) : Table κ α :=
  ⟨table.entries.filter fun entry => keep entry.1⟩

def erase (table : Table κ α) (key : κ) : Table κ α :=
  table.filterKeys (· ≠ key)

/-- Write entries one after another; the last value of a key wins, in the key's first place. -/
def insertAll (table : Table κ α) (entries : List (κ × α)) : Table κ α :=
  entries.foldl (fun table entry => table.insert entry.1 entry.2) table

/-- Offer entries one after another; the first value of a key wins. -/
def insertAllIfNew (table : Table κ α) (entries : List (κ × α)) : Table κ α :=
  entries.foldl (fun table entry => table.insertIfNew entry.1 entry.2) table

theorem lookup_place_self (key : κ) (value : α) (entries : List (κ × α)) :
    lookup key (place key value entries) = some value := by
  induction entries with
  | nil => simp [place, lookup]
  | cons entry rest ih =>
    obtain ⟨other, old⟩ := entry
    by_cases same : other = key <;> simp [place, lookup, same, ih]

theorem lookup_place_of_ne {key asked : κ} (distinct : key ≠ asked) (value : α)
    (entries : List (κ × α)) : lookup asked (place key value entries) = lookup asked entries := by
  induction entries with
  | nil => simp [place, lookup, distinct]
  | cons entry rest ih =>
    obtain ⟨other, old⟩ := entry
    by_cases same : other = key
    · subst same; simp [place, lookup, distinct]
    · simp [place, lookup, same, ih]

theorem lookup_isSome_iff (key : κ) (entries : List (κ × α)) :
    (lookup key entries).isSome ↔ key ∈ entries.map Prod.fst := by
  induction entries with
  | nil => simp [lookup]
  | cons entry rest ih =>
    obtain ⟨other, old⟩ := entry
    by_cases same : other = key
    · simp [lookup, same]
    · simp [lookup, same, ih, Ne.symm same]

theorem map_fst_place (key : κ) (value : α) (entries : List (κ × α)) :
    (place key value entries).map Prod.fst =
      if key ∈ entries.map Prod.fst then entries.map Prod.fst else entries.map Prod.fst ++ [key] := by
  induction entries with
  | nil => simp [place]
  | cons entry rest ih =>
    obtain ⟨other, old⟩ := entry
    by_cases same : other = key
    · simp [place, same]
    · by_cases later : key ∈ rest.map Prod.fst <;>
        simp_all [place, Ne.symm same]

@[simp] theorem find?_empty (key : κ) : (empty : Table κ α).find? key = none := rfl

@[simp] theorem find?_insert_self (table : Table κ α) (key : κ) (value : α) :
    (table.insert key value).find? key = some value :=
  lookup_place_self key value table.entries

theorem find?_insert_of_ne (table : Table κ α) {key asked : κ} (distinct : key ≠ asked) (value : α) :
    (table.insert key value).find? asked = table.find? asked :=
  lookup_place_of_ne distinct value table.entries

theorem contains_iff_mem_keys (table : Table κ α) (key : κ) :
    table.contains key ↔ key ∈ table.keys :=
  lookup_isSome_iff key table.entries

/-- A written key keeps its place, and a new one goes to the end. -/
theorem keys_insert (table : Table κ α) (key : κ) (value : α) :
    (table.insert key value).keys = if key ∈ table.keys then table.keys else table.keys ++ [key] :=
  map_fst_place key value table.entries

end Table

end ItemSchema
