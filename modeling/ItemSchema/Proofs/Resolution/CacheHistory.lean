import ItemSchema.Proofs.Table
import ItemSchema.Resolution.Cache
import Mathlib.Data.List.Induction
import Mathlib.Data.Set.Card

/-! What a cache holds, read off the calls that were made on it.

An entry is found under an occurrence exactly when the last put under that
occurrence wrote it and no later call covers the occurrence. All calls but puts
are alike: they keep the entries they do not cover, in order.
-/

set_option autoImplicit false

namespace ItemSchema.Cache

namespace Call

/-- Whether a call drops whatever is kept for an occurrence. -/
def covers (call : Call) (occurrence : Occurrence) : Bool :=
  match call with
  | .put .. => false
  | .invalidate dropped => occurrence = dropped
  | .invalidateScope document scope => occurrence.document = document && occurrence.scope = scope
  | .invalidateDocument document => occurrence.document = document
  | .occurrenceChanged changed => occurrence.isSiblingOf changed
  | .invalidateAll => true

def isPut : Call → Bool
  | .put .. => true
  | _ => false

def isPutUnder (call : Call) (occurrence : Occurrence) : Bool :=
  match call with
  | .put written .. => written = occurrence
  | _ => false

/-- Whether a call drops entries for some occurrences only, and so tells what it dropped. -/
def isTargeted : Call → Bool
  | .put .. | .invalidateAll => false
  | .invalidate _ | .invalidateScope .. | .invalidateDocument _ | .occurrenceChanged _ => true

theorem isPutUnder_eq_false {call : Call} (dropping : call.isPut = false) (occurrence : Occurrence) :
    call.isPutUnder occurrence = false := by
  cases call with
  | put => cases dropping
  | _ => rfl

end Call

/-- How many entries a reply says were dropped, if it says so. -/
def Reply.count? : Reply → Option Nat
  | .done => none
  | .wasCached present => some present.toNat
  | .dropped count => some count

/-- The cache after calls on a new one. -/
def run (calls : List Call) : Cache := calls.foldl (fun cache call => (cache.perform call).2) .empty

theorem run_append (calls : List Call) (call : Call) :
    run (calls ++ [call]) = ((run calls).perform call).2 := by
  simp [run]

theorem entries_perform_of_not_put {call : Call} (dropping : call.isPut = false) (cache : Cache) :
    (cache.perform call).2.entries = cache.entries.filterKeys (!call.covers ·) := by
  cases call with
  | put => cases dropping
  | invalidate | invalidateScope | invalidateDocument | occurrenceChanged => rfl
  | invalidateAll => simp [perform, invalidateAll, Call.covers, Table.filterKeys, Table.empty]

theorem find?_perform_of_not_put {call : Call} (dropping : call.isPut = false) (cache : Cache)
    (occurrence : Occurrence) :
    (cache.perform call).2.entries.find? occurrence =
      if call.covers occurrence then none else cache.entries.find? occurrence := by
  rw [entries_perform_of_not_put dropping, Table.find?_filterKeys]
  cases call.covers occurrence <;> rfl

/-- Entries are numbered by the puts before them. -/
theorem written_run (calls : List Call) : (run calls).written = calls.countP (·.isPut) := by
  induction calls using List.reverseRecOn with
  | nil => rfl
  | append_singleton calls call ih =>
    rw [run_append, List.countP_append, ← ih]
    cases call <;> rfl

theorem nodup_keys_run (calls : List Call) : (run calls).entries.keys.Nodup := by
  induction calls using List.reverseRecOn with
  | nil => exact List.nodup_nil
  | append_singleton calls call ih =>
    rw [run_append]
    cases dropping : call.isPut with
    | false =>
      rw [entries_perform_of_not_put dropping]
      exact Table.nodup_keys_filterKeys ih _
    | true =>
      cases call with
      | put occurrence => exact Table.nodup_keys_insert ih occurrence _
      | _ => cases dropping

/-- The last put under an occurrence wrote an entry, and no later call covers the occurrence. -/
def Stands (calls : List Call) (occurrence : Occurrence) (entry : CacheEntry) : Prop :=
  ∃ earlier later,
    calls = earlier ++ .put occurrence entry.question entry.generation entry.candidates :: later ∧
    entry.serial = earlier.countP (·.isPut) ∧
    ∀ call ∈ later, call.isPutUnder occurrence = false ∧ call.covers occurrence = false

/-- A call writes the entry that stands after it, or leaves alone the one that stood before. -/
theorem stands_append_iff (calls : List Call) (call : Call) (occurrence : Occurrence)
    (entry : CacheEntry) :
    Stands (calls ++ [call]) occurrence entry ↔
      (call = .put occurrence entry.question entry.generation entry.candidates ∧
        entry.serial = calls.countP (·.isPut)) ∨
      (call.isPutUnder occurrence = false ∧ call.covers occurrence = false ∧
        Stands calls occurrence entry) := by
  constructor
  · rintro ⟨earlier, later, split, numbered, untouched⟩
    rcases List.eq_nil_or_concat' later with rfl | ⟨later, last, rfl⟩
    · obtain ⟨rfl, same⟩ := List.append_inj' split rfl
      exact .inl ⟨List.singleton_inj.mp same, numbered⟩
    · rw [← List.cons_append, ← List.append_assoc] at split
      obtain ⟨rfl, same⟩ := List.append_inj' split rfl
      cases List.singleton_inj.mp same
      obtain ⟨unwritten, uncovered⟩ := untouched call (by simp)
      refine .inr ⟨unwritten, uncovered, earlier, later, rfl, numbered, ?_⟩
      exact fun other member => untouched other (List.mem_append_left _ member)
  · rintro (⟨rfl, numbered⟩ | ⟨unwritten, uncovered, earlier, later, rfl, numbered, untouched⟩)
    · exact ⟨calls, [], rfl, numbered, by simp⟩
    · refine ⟨earlier, later ++ [call], by simp, numbered, ?_⟩
      intro other member
      rcases List.mem_append.mp member with before | last
      · exact untouched other before
      · rw [List.mem_singleton.mp last]
        exact ⟨unwritten, uncovered⟩

/-- After every run of calls, the entries of the cache are those that stand. -/
theorem find?_run_eq_some_iff (calls : List Call) (occurrence : Occurrence) (entry : CacheEntry) :
    (run calls).entries.find? occurrence = some entry ↔ Stands calls occurrence entry := by
  induction calls using List.reverseRecOn with
  | nil =>
    constructor
    · intro found
      cases found
    · rintro ⟨earlier, later, split, -⟩
      simp at split
  | append_singleton calls call ih =>
    rw [run_append, stands_append_iff, ← ih]
    cases dropping : call.isPut with
    | false =>
      have unwritten := Call.isPutUnder_eq_false dropping occurrence
      have other : call ≠ .put occurrence entry.question entry.generation entry.candidates := by
        rintro rfl
        cases dropping
      rw [find?_perform_of_not_put dropping]
      cases call.covers occurrence <;> simp [unwritten, other]
    | true =>
      cases call with
      | put written question generation candidates =>
        simp only [perform, put, Table.find?_insert, written_run, Call.isPutUnder, Call.covers]
        by_cases own : written = occurrence
        · subst own
          simp only [if_true, Option.some.injEq, decide_true, Bool.true_eq_false, false_and, or_false]
          constructor
          · rintro rfl
            exact ⟨rfl, rfl⟩
          · rintro ⟨same, numbered⟩
            cases same
            rw [← numbered]
        · simp [own]
      | _ => cases dropping

theorem exists_stands_iff_mem_keys (calls : List Call) (occurrence : Occurrence) :
    (∃ entry, Stands calls occurrence entry) ↔ occurrence ∈ (run calls).entries.keys := by
  rw [← Table.contains_iff_mem_keys, Table.contains, Option.isSome_iff_exists]
  simp only [find?_run_eq_some_iff]

/-- The entries that a call covers are those that the cache shrinks by. -/
theorem size_perform_of_not_put {call : Call} (dropping : call.isPut = false) (cache : Cache) :
    (cache.entries.keys.filter call.covers).length + (cache.perform call).2.size = cache.size := by
  unfold size
  rw [entries_perform_of_not_put dropping, ← Table.length_keys, ← Table.length_keys,
    Table.keys_filterKeys]
  exact (List.length_eq_length_filter_add call.covers).symm

theorem lost_add_size_perform {call : Call} (dropping : call.isPut = false) (cache : Cache) :
    cache.lost (cache.perform call).2 + (cache.perform call).2.size = cache.size := by
  have shrinks := size_perform_of_not_put dropping cache
  unfold lost
  omega

theorem toNat_contains_eq_length_filter {cache : Cache} (distinct : cache.entries.keys.Nodup)
    (occurrence : Occurrence) :
    (cache.entries.contains occurrence).toNat =
      (cache.entries.keys.filter (Call.invalidate occurrence).covers).length := by
  have counted : (cache.entries.keys.filter (Call.invalidate occurrence).covers).length =
      cache.entries.keys.count occurrence := by
    rw [List.count, List.countP_eq_length_filter]
    rfl
  rw [counted, distinct.count]
  by_cases present : occurrence ∈ cache.entries.keys
  · simp [present, (cache.entries.contains_iff_mem_keys occurrence).mpr present]
  · have absent : cache.entries.contains occurrence = false := by
      simpa using mt (cache.entries.contains_iff_mem_keys occurrence).mp present
    simp [present, absent]

/-- A call that drops some occurrences only says by how many entries the cache shrinks. -/
theorem count?_perform {cache : Cache} (distinct : cache.entries.keys.Nodup) {call : Call}
    (targeted : call.isTargeted) :
    ∃ count, (cache.perform call).1.count? = some count ∧
      count + (cache.perform call).2.size = cache.size := by
  cases call with
  | put | invalidateAll => cases targeted
  | invalidate occurrence =>
    refine ⟨_, rfl, ?_⟩
    rw [toNat_contains_eq_length_filter distinct]
    exact size_perform_of_not_put rfl cache
  | invalidateScope | invalidateDocument | occurrenceChanged =>
    refine ⟨cache.lost (cache.perform _).2, ?_, lost_add_size_perform rfl cache⟩
    rfl

theorem get?_eq_some_iff (cache : Cache) (occurrence : Occurrence) (question : Question)
    (generation : Generation) (entry : CacheEntry) :
    cache.get? occurrence question generation = some entry ↔
      cache.entries.find? occurrence = some entry ∧ entry.question = question ∧
        entry.generation = generation := by
  simp only [get?, Option.filter_eq_some_iff, CacheEntry.answers, Bool.and_eq_true, decide_eq_true_eq]
  tauto

/-- After every run of calls on a new cache, a lookup finds an entry exactly when the last put under
the occurrence wrote it for that question and generation and no later call covers the occurrence. The
size is the number of such occurrences. A further call that drops some occurrences only returns by
how much the size decreases, and leaves the entries it does not cover as they are. -/
theorem run_holds_last_puts (calls : List Call) :
    (∀ occurrence question generation entry,
      (run calls).get? occurrence question generation = some entry ↔
        Stands calls occurrence entry ∧ entry.question = question ∧
          entry.generation = generation) ∧
    Set.encard {occurrence | ∃ entry, Stands calls occurrence entry} = (run calls).size ∧
    ∀ call, call.isTargeted →
      let result := (run calls).perform call
      (∃ count, result.1.count? = some count ∧ count + result.2.size = (run calls).size) ∧
      ∀ occurrence, call.covers occurrence = false →
        result.2.entries.find? occurrence = (run calls).entries.find? occurrence := by
  refine ⟨?_, ?_, ?_⟩
  · intro occurrence question generation entry
    rw [get?_eq_some_iff, find?_run_eq_some_iff]
  · have standing : {occurrence | ∃ entry, Stands calls occurrence entry} =
        ((run calls).entries.keys.toFinset : Set Occurrence) := by
      ext occurrence
      simp [exists_stands_iff_mem_keys]
    rw [standing, Set.encard_coe_eq_coe_finsetCard, List.toFinset_card_of_nodup (nodup_keys_run calls),
      Table.length_keys]
    rfl
  · intro call targeted result
    have dropping : call.isPut = false := by
      cases call with
      | put => cases targeted
      | _ => rfl
    refine ⟨count?_perform (nodup_keys_run calls) targeted, ?_⟩
    intro occurrence uncovered
    rw [find?_perform_of_not_put dropping, uncovered]
    rfl

/-- Siblings and a stranger are put, one of them twice for different features, before an edit of the
other sibling is reported. -/
theorem run_holds_last_puts_after_edit :
    let first : Occurrence := ⟨⟨1⟩, 0, ⟨0, 4, by decide⟩⟩
    let sibling : Occurrence := ⟨⟨1⟩, 0, ⟨10, 14, by decide⟩⟩
    let stranger : Occurrence := ⟨⟨1⟩, 1, ⟨20, 24, by decide⟩⟩
    let question (feature : String) : Question := { ownerKind := .item, owner := "Order", feature }
    let calls : List Call :=
      [.put first (question "code") 1 [], .put sibling (question "code") 1 [],
        .invalidateDocument ⟨2⟩, .put first (question "name") 1 [],
        .put stranger (question "code") 2 []]
    let changed : Call := .occurrenceChanged sibling
    changed.isTargeted ∧ changed.covers stranger = false ∧
      (run calls).get? first (question "name") 1 = some ⟨1, question "name", [], 2⟩ ∧
      Stands calls first ⟨1, question "name", [], 2⟩ ∧
      ((run calls).perform changed).1 = .dropped 2 ∧
      ((run calls).perform changed).2.entries.find? stranger =
        (run calls).entries.find? stranger := by
  intro first sibling stranger question calls changed
  obtain ⟨found, -, dropped⟩ := run_holds_last_puts calls
  have hit : (run calls).get? first (question "name") 1 = some ⟨1, question "name", [], 2⟩ := by
    decide
  have uncovered : changed.covers stranger = false := by decide
  refine ⟨rfl, uncovered, hit, ((found _ _ _ _).mp hit).1, by decide, ?_⟩
  exact (dropped changed rfl).2 stranger uncovered

end ItemSchema.Cache
