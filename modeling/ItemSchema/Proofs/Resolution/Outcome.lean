import ItemSchema.Proofs.Table
import ItemSchema.Resolution.Diagnostic

/-! What resolving a request can do: the answers it gives and what it leaves in the cache.

There are five ways for a resolution to go, and in only one of them the cache
changes: by one entry, under the occurrence that asked, with the candidates that
the model has for the question. All queries are made of resolutions, so to the
cache they are series of such entries.
-/

set_option autoImplicit false

namespace ItemSchema

namespace Resolution

/-- The ways in which resolving a request can go, with the answer and the course it ends with. -/
inductive Outcome (model : Model) (signal : Signal) (request : Request) (course : Course) :
    Answer × Course → Prop where
  | cancelledBefore (raised : signal.isRaised course.progress) :
      Outcome model signal request course
        (.nothing, { course with progress := course.progress.polled })
  | hit (entry : CacheEntry) (quiet : signal.isRaised course.progress = false)
      (found : cached? model request course.cache = some entry) :
      Outcome model signal request course
        ({ candidates := entry.candidates, serial := some entry.serial },
          { course with progress := course.progress.polled })
  | cancelledAfter (missed : cached? model request course.cache = none)
      (raised : signal.isRaised course.progress.polled.computed) :
      Outcome model signal request course
        (.nothing, { course with progress := course.progress.polled.computed.polled })
  | unkept (missed : cached? model request course.cache = none)
      (quiet : signal.isRaised course.progress.polled.computed = false)
      (nowhere : request.occurrence = none ∨ model.candidates request.toQuestion = []) :
      Outcome model signal request course
        ({ candidates := model.candidates request.toQuestion },
          { course with progress := course.progress.polled.computed.polled })
  | kept (occurrence : Occurrence) (missed : cached? model request course.cache = none)
      (quiet : signal.isRaised course.progress.polled.computed = false)
      (asking : request.occurrence = some occurrence)
      (nonempty : model.candidates request.toQuestion ≠ []) :
      Outcome model signal request course
        ({ candidates := model.candidates request.toQuestion, serial := some course.cache.written },
          { cache := course.cache.put occurrence request.toQuestion model.generation
              (model.candidates request.toQuestion)
            progress := course.progress.polled.computed.polled })

theorem outcome_resolve (model : Model) (signal : Signal) (request : Request) (course : Course) :
    Outcome model signal request course (resolve model signal request course) := by
  cases before : signal.isRaised course.progress with
  | true =>
    simpa [resolve, Course.poll, before] using Outcome.cancelledBefore before
  | false =>
    cases found : cached? model request course.cache with
    | some entry =>
      simpa [resolve, Course.poll, before, found] using Outcome.hit entry before found
    | none =>
      cases after : signal.isRaised course.progress.polled.computed with
      | true =>
        simpa [resolve, compute, Course.poll, before, found, after]
          using Outcome.cancelledAfter found after
      | false =>
        cases asking : request.occurrence with
        | none =>
          simpa [resolve, compute, keep, Course.poll, before, found, after, asking]
            using Outcome.unkept found after (.inl asking)
        | some occurrence =>
          by_cases empty : model.candidates request.toQuestion = []
          · simpa [resolve, compute, keep, Course.poll, before, found, after, asking, empty]
              using Outcome.unkept found after (.inr empty)
          · simpa [resolve, compute, keep, Course.poll, before, found, after, asking, empty]
              using Outcome.kept occurrence found after asking empty

end Resolution

/-- Every entry of a cache that has the number of a model holds what the model answers. -/
def Cache.SoundFor (cache : Cache) (model : Model) : Prop :=
  ∀ occurrence entry, cache.entries.find? occurrence = some entry →
    entry.generation = model.generation → entry.candidates = model.candidates entry.question

/-- A cache after any number of answers of one model were written to it. -/
inductive Cache.FilledBy (model : Model) (before : Cache) : Cache → Prop where
  | nothing : FilledBy model before before
  | answer {after : Cache} (occurrence : Occurrence) (question : Question) :
      FilledBy model before after →
      FilledBy model before
        (after.put occurrence question model.generation (model.candidates question))

namespace Cache

theorem soundFor_of_entries_eq_empty {cache : Cache} (empty : cache.entries = .empty) (model : Model) :
    cache.SoundFor model := by
  intro occurrence entry found
  simp [empty] at found

theorem SoundFor.drop {cache : Cache} {model : Model} (sound : cache.SoundFor model)
    (covered : Occurrence → Bool) : (cache.drop covered).SoundFor model := by
  intro occurrence entry found
  apply sound occurrence
  simp only [Cache.drop, Table.find?_filterKeys] at found
  split at found
  · exact found
  · cases found

/-- An answer of one model is sound for every other model, unless both have the same number. -/
theorem SoundFor.put {cache : Cache} {model other : Model} (sound : cache.SoundFor other)
    (told : other.generation = model.generation → other = model) (occurrence : Occurrence)
    (question : Question) :
    (cache.put occurrence question model.generation (model.candidates question)).SoundFor other := by
  intro asked entry found numbered
  simp only [Cache.put, Table.find?_insert] at found
  split at found
  · cases found
    rw [told numbered.symm]
  · exact sound asked entry found numbered

theorem SoundFor.filled {before after : Cache} {model other : Model} (sound : before.SoundFor other)
    (told : other.generation = model.generation → other = model) (filled : FilledBy model before after) :
    after.SoundFor other := by
  induction filled with
  | nothing => exact sound
  | answer occurrence question _ ih => exact ih.put told occurrence question

theorem FilledBy.trans {model : Model} {first second third : Cache}
    (earlier : FilledBy model first second) (later : FilledBy model second third) :
    FilledBy model first third := by
  induction later with
  | nothing => exact earlier
  | answer occurrence question _ ih => exact .answer occurrence question ih

end Cache

theorem Progress.Before.refl (progress : Progress) : progress.Before progress :=
  ⟨Nat.le_refl _, Nat.le_refl _⟩

theorem Progress.Before.trans {first second third : Progress} (earlier : first.Before second)
    (later : second.Before third) : first.Before third :=
  ⟨Nat.le_trans earlier.1 later.1, Nat.le_trans earlier.2 later.2⟩

theorem Progress.before_polled (progress : Progress) : progress.Before progress.polled :=
  ⟨Nat.le_succ _, Nat.le_refl _⟩

theorem Progress.before_computed (progress : Progress) : progress.Before progress.computed :=
  ⟨Nat.le_refl _, Nat.le_succ _⟩

/-- A signal that is quiet at some point was quiet at every point before. -/
theorem Signal.quiet_before (signal : Signal) {earlier later : Progress} (before : earlier.Before later)
    (quiet : signal.isRaised later = false) : signal.isRaised earlier = false := by
  cases raised : signal.isRaised earlier with
  | false => rfl
  | true => exact absurd (signal.stays earlier later before raised) (by simp [quiet])

namespace Resolution

variable (model : Model) (signal : Signal)

theorem before_resolve (request : Request) (course : Course) :
    course.progress.Before (resolve model signal request course).2.progress := by
  have polled := course.progress.before_polled
  have computed := (polled.trans (Progress.before_computed _)).trans (Progress.before_polled _)
  have outcome := outcome_resolve model signal request course
  generalize resolve model signal request course = result at outcome ⊢
  cases outcome with
  | cancelledBefore | hit => exact polled
  | cancelledAfter | unkept | kept => exact computed

theorem before_resolveAll (requests : List Request) (course : Course) :
    course.progress.Before (resolveAll model signal requests course).2.progress := by
  induction requests generalizing course with
  | nil => exact .refl _
  | cons request rest ih => exact (before_resolve model signal request course).trans (ih _)

theorem filledBy_resolve (request : Request) (course : Course) :
    course.cache.FilledBy model (resolve model signal request course).2.cache := by
  have outcome := outcome_resolve model signal request course
  generalize resolve model signal request course = result at outcome ⊢
  cases outcome with
  | cancelledBefore | hit | cancelledAfter | unkept => exact .nothing
  | kept occurrence => exact .answer occurrence request.toQuestion .nothing

theorem filledBy_resolveSingle (request : Request) (course : Course) :
    course.cache.FilledBy model (resolveSingle model signal request course).2.cache := by
  have resolved := filledBy_resolve model signal request course
  unfold resolveSingle Course.poll
  dsimp only
  split <;> exact resolved

theorem filledBy_resolveAll (requests : List Request) (course : Course) :
    course.cache.FilledBy model (resolveAll model signal requests course).2.cache := by
  induction requests generalizing course with
  | nil => exact .nothing
  | cons request rest ih => exact (filledBy_resolve model signal request course).trans (ih _)

theorem filledBy_checkOne (strict : Bool) (request : Request) (course : Course) :
    course.cache.FilledBy model (checkOne model signal strict request course).2.cache := by
  unfold checkOne
  split
  · exact .nothing
  · exact filledBy_resolveSingle model signal request course

theorem filledBy_checkEach (strict : Bool) (requests : List Request) (course : Course) :
    course.cache.FilledBy model (checkEach model signal strict requests course).2.cache := by
  induction requests generalizing course with
  | nil => exact .nothing
  | cons request rest ih =>
    cases raised : signal.isRaised course.progress with
    | true =>
      simp only [checkEach, Course.poll, raised, if_true]
      exact .nothing
    | false =>
      simp only [checkEach, Course.poll, raised, Bool.false_eq_true, if_false]
      let polled : Course := { course with progress := course.progress.polled }
      exact (filledBy_checkOne model signal strict request polled).trans (ih _)

variable {model signal}

/-- A resolution that no cancellation cut short answers from the model alone, whatever a sound
cache holds. -/
theorem candidates_resolve (request : Request) (course : Course) (sound : course.cache.SoundFor model)
    (live : signal.isRaised (resolve model signal request course).2.progress = false) :
    (resolve model signal request course).1.candidates = model.candidates request.toQuestion := by
  have outcome := outcome_resolve model signal request course
  generalize resolve model signal request course = result at outcome live ⊢
  cases outcome with
  | cancelledBefore raised =>
    have quiet := signal.quiet_before course.progress.before_polled live
    simp [raised] at quiet
  | cancelledAfter missed raised =>
    have quiet := signal.quiet_before (Progress.before_polled _) live
    simp [raised] at quiet
  | unkept | kept => rfl
  | hit entry quiet found =>
    obtain ⟨occurrence, -, answering⟩ := Option.bind_eq_some_iff.mp found
    obtain ⟨stored, answers⟩ := Option.filter_eq_some_iff.mp answering
    simp only [CacheEntry.answers, Bool.and_eq_true, decide_eq_true_eq] at answers
    rw [← answers.2]
    exact sound occurrence entry stored answers.1

theorem candidates_resolveAll (requests : List Request) (course : Course)
    (sound : course.cache.SoundFor model)
    (live : signal.isRaised (resolveAll model signal requests course).2.progress = false) :
    (resolveAll model signal requests course).1.map (·.candidates) =
      requests.map fun request => model.candidates request.toQuestion := by
  induction requests generalizing course with
  | nil => rfl
  | cons request rest ih =>
    have soundAfter := sound.filled (fun _ => rfl) (filledBy_resolve model signal request course)
    have liveFirst := signal.quiet_before (before_resolveAll model signal rest _) live
    simp only [resolveAll, List.map_cons, candidates_resolve request course sound liveFirst]
    rw [ih _ soundAfter live]

/-- Without a cached answer, strict resolution depends on the model only by its candidates. -/
theorem resolveSingle_of_missed (request : Request) (course : Course)
    (missed : cached? model request course.cache = none) :
    (resolveSingle model signal request course).1 =
      if signal.isRaised course.progress.polled.computed.polled then .error .cancelled
      else only request.toQuestion (model.candidates request.toQuestion) := by
  have outcome := outcome_resolve model signal request course
  unfold resolveSingle Course.poll
  generalize resolve model signal request course = result at outcome ⊢
  -- A signal that was raised at an earlier poll is raised at the last one too.
  cases outcome with
  | cancelledBefore raised =>
    have polled := signal.stays _ _ course.progress.before_polled raised
    have later := signal.stays _ _
      ((Progress.before_computed _).trans (Progress.before_polled _)) polled
    simp [polled, later]
  | hit entry quiet found =>
    rw [missed] at found
    cases found
  | cancelledAfter _ raised =>
    have later := signal.stays _ _ (Progress.before_polled _) raised
    simp [later]
  | unkept | kept =>
    dsimp only
    split <;> rfl

end Resolution

end ItemSchema
