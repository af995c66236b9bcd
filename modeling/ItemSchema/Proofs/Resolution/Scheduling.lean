import ItemSchema.Proofs.Resolution.Outcome

/-! Batches whose requests are resolved in any order.

The requests of a batch share one cache, and which of them comes first decides
what it holds in the end. It does not decide the answers: every request is given
the candidates that the model has for it, at its own position, while the cache
stays sound.
-/

set_option autoImplicit false

namespace ItemSchema.Resolution

/-- A batch under way: the answer at the position of each request, once there is one. -/
structure Batch where
  answers : List (Option Answer)
  course : Course

namespace Batch

def start (requests : List Request) (course : Course) : Batch :=
  { answers := List.replicate requests.length none, course }

variable (model : Model) (signal : Signal) (requests : List Request)

/-- Resolve the request at a position, if there is one. -/
def resolveAt (batch : Batch) (position : Nat) : Batch :=
  match requests[position]? with
  | none => batch
  | some request =>
      let (answer, course) := resolve model signal request batch.course
      { answers := batch.answers.set position (some answer), course }

/-- Resolve the requests at the positions of a schedule, one after another. -/
def run (batch : Batch) (schedule : List Nat) : Batch :=
  schedule.foldl (resolveAt model signal requests) batch

/-- Resolving in the order of the requests fills the batch from the front. -/
theorem run_range'_eq_resolveAll (before rest : List Request) (answers : List Answer)
    (aligned : answers.length = before.length) (course : Course) :
    ({ answers := answers.map some ++ List.replicate rest.length none, course } : Batch).run model signal
        (before ++ rest) (List.range' before.length rest.length) =
      { answers := (answers ++ (resolveAll model signal rest course).1).map some
        course := (resolveAll model signal rest course).2 } := by
  induction rest generalizing before answers course with
  | nil => simp [run, resolveAll]
  | cons request rest ih =>
    have next := ih (before ++ [request]) (answers ++ [(resolve model signal request course).1])
      (by simp [aligned]) (resolve model signal request course).2
    simp only [List.append_assoc, List.singleton_append, List.length_append, List.length_singleton] at next
    simp only [resolveAll]
    rw [← next]
    simp [run, List.range'_succ, resolveAt, aligned, List.replicate_succ]

/-- To resolve the requests of a list in turn is to resolve a batch of them in its own order. -/
theorem run_range_eq_resolveAll (course : Course) :
    (start requests course).run model signal requests (List.range requests.length) =
      { answers := (resolveAll model signal requests course).1.map some
        course := (resolveAll model signal requests course).2 } := by
  rw [List.range_eq_range']
  exact run_range'_eq_resolveAll model signal [] requests [] rfl course

theorem before_resolveAt (batch : Batch) (position : Nat) :
    batch.course.progress.Before
      (batch.resolveAt model signal requests position).course.progress := by
  unfold resolveAt
  split
  · exact .refl _
  · exact before_resolve model signal _ batch.course

theorem before_run (batch : Batch) (schedule : List Nat) :
    batch.course.progress.Before (batch.run model signal requests schedule).course.progress := by
  induction schedule generalizing batch with
  | nil => exact .refl _
  | cons position later ih => exact (before_resolveAt model signal requests batch position).trans (ih _)

theorem filledBy_resolveAt (batch : Batch) (position : Nat) :
    batch.course.cache.FilledBy model
      (batch.resolveAt model signal requests position).course.cache := by
  unfold resolveAt
  split
  · exact .nothing
  · exact filledBy_resolve model signal _ batch.course

theorem filledBy_run (batch : Batch) (schedule : List Nat) :
    batch.course.cache.FilledBy model (batch.run model signal requests schedule).course.cache := by
  induction schedule generalizing batch with
  | nil => exact .nothing
  | cons position later ih =>
    exact (filledBy_resolveAt model signal requests batch position).trans (ih _)

theorem length_answers_resolveAt (batch : Batch) (position : Nat) :
    (batch.resolveAt model signal requests position).answers.length = batch.answers.length := by
  unfold resolveAt
  split
  · rfl
  · exact List.length_set

/-- The candidates found so far, at the positions of their requests. -/
def found (batch : Batch) : List (Option (List Candidate)) :=
  batch.answers.map (·.map (·.candidates))

/-- What is found at a position is what the model has for the request there. -/
def IsAnswered (batch : Batch) (position : Nat) : Prop :=
  batch.found[position]? =
    requests[position]?.map fun request => some (model.candidates request.toQuestion)

variable {model signal requests}

theorem found_resolveAt {batch : Batch} {position : Nat} {request : Request}
    (placed : requests[position]? = some request) (sound : batch.course.cache.SoundFor model)
    (live : signal.isRaised
      (batch.resolveAt model signal requests position).course.progress = false) :
    (batch.resolveAt model signal requests position).found =
      batch.found.set position (some (model.candidates request.toQuestion)) := by
  simp only [resolveAt, placed] at live ⊢
  simp only [found, List.map_set, Option.map_some,
    candidates_resolve request batch.course sound live]

/-- A step answers the request at its position, and spoils no answer. -/
theorem isAnswered_resolveAt {batch : Batch} (sized : batch.answers.length = requests.length)
    (sound : batch.course.cache.SoundFor model) {position : Nat}
    (live : signal.isRaised
      (batch.resolveAt model signal requests position).course.progress = false)
    {asked : Nat} (answered : asked = position ∨ batch.IsAnswered model requests asked) :
    (batch.resolveAt model signal requests position).IsAnswered model requests asked := by
  cases placed : requests[position]? with
  | none =>
    rcases answered with rfl | answered
    · have beyond := List.getElem?_eq_none_iff.mp placed
      simp [IsAnswered, resolveAt, found, sized, beyond]
    · simpa [resolveAt, placed] using answered
  | some request =>
    unfold IsAnswered at answered ⊢
    rw [found_resolveAt placed sound live, List.getElem?_set]
    by_cases own : position = asked
    · subst own
      have within : position < batch.found.length := by
        obtain ⟨within, -⟩ := List.getElem?_eq_some_iff.mp placed
        simpa [found, sized] using within
      simp [placed, within]
    · rw [if_neg own]
      exact answered.resolve_left (Ne.symm own)

theorem isAnswered_run {schedule : List Nat} {batch : Batch}
    (sized : batch.answers.length = requests.length) (sound : batch.course.cache.SoundFor model)
    (live : signal.isRaised (batch.run model signal requests schedule).course.progress = false)
    {asked : Nat} (answered : asked ∈ schedule ∨ batch.IsAnswered model requests asked) :
    (batch.run model signal requests schedule).IsAnswered model requests asked := by
  induction schedule generalizing batch with
  | nil => exact answered.resolve_left (List.not_mem_nil)
  | cons position later ih =>
    have liveFirst := signal.quiet_before (before_run model signal requests _ later) live
    have soundAfter := sound.filled (fun _ => rfl)
      (filledBy_resolveAt model signal requests batch position)
    refine ih ?_ soundAfter live ?_
    · rw [length_answers_resolveAt, sized]
    · rw [List.mem_cons, or_assoc, or_left_comm] at answered
      exact answered.imp_right (isAnswered_resolveAt sized sound liveFirst)

/-- In every order of the requests of a batch, each request is given the candidates that the model
has for it, at its own position, and the cache stays sound. Resolving a list of requests is to
resolve them in the order of the list. -/
theorem found_run_of_perm {schedule : List Nat}
    (permuted : schedule.Perm (List.range requests.length)) {course : Course}
    (sound : course.cache.SoundFor model)
    (live : signal.isRaised
      ((start requests course).run model signal requests schedule).course.progress = false) :
    let ended := (start requests course).run model signal requests schedule
    ended.found = requests.map (fun request => some (model.candidates request.toQuestion)) ∧
      ended.course.cache.SoundFor model ∧
      (start requests course).run model signal requests (List.range requests.length) =
        { answers := (resolveAll model signal requests course).1.map some
          course := (resolveAll model signal requests course).2 } := by
  intro ended
  refine ⟨?_, ?_, run_range_eq_resolveAll model signal requests course⟩
  · apply List.ext_getElem?
    intro position
    rw [List.getElem?_map]
    refine isAnswered_run (by simp [start]) sound live ?_
    by_cases within : position < requests.length
    · exact .inl (permuted.mem_iff.mpr (List.mem_range.mpr within))
    · right
      simp [IsAnswered, found, start, Nat.le_of_not_lt within]
  · exact sound.filled (fun _ => rfl)
      (filledBy_run model signal requests (start requests course) schedule)

/-- Two requests for different attributes ask at one occurrence, which has an outdated entry, and a
third one at none; they are resolved last to first. -/
theorem found_run_of_perm_last_to_first :
    let declared : Declaration :=
      .item { name := "Product", attributes := [{ name := "code" }, { name := "name" }] }
    let model := Model.build {} ((Registry.ofSettings {}).registerAll [declared]).1 1
    let occurrence : Occurrence := ⟨⟨1⟩, 0, ⟨0, 4, by decide⟩⟩
    let question (feature : String) : Question := { ownerKind := .item, owner := "Product", feature }
    let requests : List Request :=
      [{ question "code" with occurrence := some occurrence },
        { question "name" with occurrence := some occurrence },
        { question "code" with occurrence := none }]
    let course : Course := { cache := Cache.empty.put occurrence (question "code") 0 [] }
    [2, 1, 0].Perm (List.range requests.length) ∧ course.cache.SoundFor model ∧
      ((start requests course).run model .never requests [2, 1, 0]).found =
        requests.map (fun request => some (model.candidates request.toQuestion)) := by
  intro declared model occurrence question requests course
  have permuted : [2, 1, 0].Perm (List.range requests.length) := by decide
  have sound : course.cache.SoundFor model := by
    intro asked entry stored numbered
    simp only [course, Cache.put, Table.find?_insert] at stored
    split at stored
    · cases stored
      cases numbered
    · cases stored
  exact ⟨permuted, sound, (found_run_of_perm permuted sound rfl).1⟩

end Batch

end ItemSchema.Resolution
