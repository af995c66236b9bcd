import ItemSchema.Proofs.Registry.Registration
import ItemSchema.Proofs.Resolution.Outcome

/-! Cancelling a query at any moment.

A resolution is either carried out as if it could not be cancelled, or it is cut
short: then it has no candidates and leaves the cache as it was. A strict
resolution says so, and never takes a cancellation for a missing declaration. A
check gives up at the first request it reaches too late. But it does not look
again after its last request, so that a signal raised during that one does not
take back what was found before.
-/

set_option autoImplicit false

namespace ItemSchema

@[simp] theorem Signal.isRaised_never (progress : Progress) : never.isRaised progress = false := rfl

/-- The course after one more look at the signal. -/
def Course.polled (course : Course) : Course := { course with progress := course.progress.polled }

namespace Resolution

variable (model : Model) (signal : Signal)

/-- A resolution that was cancelled, compared with the one that could not be. -/
structure CutShort (course : Course) (cut whole : Answer × Course) : Prop where
  raised : signal.isRaised cut.2.progress
  nothing : cut.1 = .nothing
  cache_eq : cut.2.cache = course.cache
  sooner : cut.2.progress.Before whole.2.progress

theorem polled_before_resolve (request : Request) (course : Course) :
    course.progress.polled.Before (resolve model signal request course).2.progress := by
  have outcome := outcome_resolve model signal request course
  generalize resolve model signal request course = result at outcome ⊢
  cases outcome with
  | cancelledBefore | hit => exact .refl _
  | cancelledAfter | unkept | kept =>
    exact (Progress.before_computed _).trans (Progress.before_polled _)

/-- A resolution that misses the cache polls twice. -/
theorem progress_resolve_of_missed {request : Request} {course : Course}
    (quiet : signal.isRaised course.progress = false)
    (missed : cached? model request course.cache = none) :
    (resolve model signal request course).2.progress = course.progress.polled.computed.polled := by
  have outcome := outcome_resolve model signal request course
  generalize resolve model signal request course = result at outcome ⊢
  cases outcome with
  | cancelledBefore raised => simp [quiet] at raised
  | hit entry _ found => simp [missed] at found
  | cancelledAfter | unkept | kept => rfl

/-- Every resolution goes as if it could not be cancelled, or is cut short. -/
theorem resolve_eq_never_or_cutShort (request : Request) (course : Course) :
    resolve model signal request course = resolve model .never request course ∨
      CutShort signal course (resolve model signal request course)
        (resolve model .never request course) := by
  cases atEntry : signal.isRaised course.progress with
  | true =>
    have cut : resolve model signal request course =
        (.nothing, { course with progress := course.progress.polled }) := by
      simp [resolve, Course.poll, atEntry]
    rw [cut]
    right
    exact ⟨signal.stays _ _ course.progress.before_polled atEntry, rfl, rfl,
      polled_before_resolve model .never request course⟩
  | false =>
    cases found : cached? model request course.cache with
    | some entry =>
      left
      simp [resolve, Course.poll, atEntry, found]
    | none =>
      cases beforeKeeping : signal.isRaised course.progress.polled.computed with
      | true =>
        have cut : resolve model signal request course =
            (.nothing, { course with progress := course.progress.polled.computed.polled }) := by
          simp [resolve, compute, Course.poll, atEntry, found, beforeKeeping]
        rw [cut]
        right
        refine ⟨signal.stays _ _ (Progress.before_polled _) beforeKeeping, rfl, rfl, ?_⟩
        rw [progress_resolve_of_missed model .never rfl found]
        exact .refl _
      | false =>
        left
        simp [resolve, compute, Course.poll, atEntry, found, beforeKeeping]

theorem resolveSingle_eq (request : Request) (course : Course) :
    resolveSingle model signal request course =
      let (answer, after) := resolve model signal request course
      (if signal.isRaised after.progress then .error .cancelled
        else only request.toQuestion answer.candidates,
        { after with progress := after.progress.polled }) := by
  unfold resolveSingle Course.poll
  dsimp only
  split <;> rfl

/-- A strict resolution reports its cancellation, and else what it finds when it cannot be
cancelled. -/
theorem resolveSingle_eq_never (request : Request) (course : Course) :
    (resolveSingle model signal request course).1 =
      if signal.isRaised (resolve model signal request course).2.progress then .error .cancelled
      else (resolveSingle model .never request course).1 := by
  rw [resolveSingle_eq, resolveSingle_eq]
  dsimp only
  split
  · rfl
  · next quiet =>
    rcases resolve_eq_never_or_cutShort model signal request course with whole | cut
    · rw [whole]
      rfl
    · exact absurd cut.raised quiet

/-- What a resolution leaves in the cache: one entry more, or all as it was. -/
theorem cache_resolve (request : Request) (course : Course) :
    (resolve model signal request course).2.cache =
      match request.occurrence with
      | none => course.cache
      | some occurrence =>
          if cached? model request course.cache = none ∧ model.candidates request.toQuestion ≠ [] ∧
              signal.isRaised course.progress = false ∧
              signal.isRaised course.progress.polled.computed = false then
            course.cache.put occurrence request.toQuestion model.generation
              (model.candidates request.toQuestion)
          else course.cache := by
  have outcome := outcome_resolve model signal request course
  generalize resolve model signal request course = result at outcome ⊢
  cases outcome with
  | cancelledBefore raised =>
    cases request.occurrence with
    | none => rfl
    | some occurrence => simp [raised]
  | hit entry _ found =>
    cases request.occurrence with
    | none => rfl
    | some occurrence => simp [found]
  | cancelledAfter _ raised =>
    cases request.occurrence with
    | none => rfl
    | some occurrence => simp [raised]
  | unkept missed quiet nowhere =>
    cases asking : request.occurrence with
    | none => rfl
    | some occurrence =>
      have empty : model.candidates request.toQuestion = [] := by simpa [asking] using nowhere
      simp [empty]
  | kept occurrence missed quiet asking nonempty =>
    have earlier := signal.quiet_before
      (course.progress.before_polled.trans (Progress.before_computed _)) quiet
    simp [asking, missed, quiet, nonempty, earlier]

/-- A missed occurrence may have an entry, but none that answers the request. -/
theorem find?_ne_of_missed {model : Model} {request : Request} {cache : Cache} {occurrence : Occurrence}
    (asking : request.occurrence = some occurrence) (missed : cached? model request cache = none)
    {entry : CacheEntry} (answers : entry.answers request.toQuestion model.generation) :
    cache.entries.find? occurrence ≠ some entry := by
  intro stored
  simp [cached?, asking, Cache.get?, stored, answers] at missed

/-- A resolution changes no entry but that of the occurrence that asked, and that one exactly when
it computes candidates and is quiet at both polls. -/
theorem find?_resolve_ne_iff (request : Request) (course : Course) (occurrence : Occurrence) :
    (resolve model signal request course).2.cache.entries.find? occurrence ≠
        course.cache.entries.find? occurrence ↔
      request.occurrence = some occurrence ∧ cached? model request course.cache = none ∧
        model.candidates request.toQuestion ≠ [] ∧ signal.isRaised course.progress = false ∧
        signal.isRaised course.progress.polled.computed = false := by
  rw [cache_resolve]
  cases asking : request.occurrence with
  | none => simp
  | some asked =>
    dsimp only
    split
    · next conditions =>
      simp only [Cache.put, Table.find?_insert, Option.some.injEq]
      by_cases own : asked = occurrence
      · subst own
        let written : CacheEntry :=
          ⟨model.generation, request.toQuestion, model.candidates request.toQuestion,
            course.cache.written⟩
        have answers : written.answers request.toQuestion model.generation := by
          simp [written, CacheEntry.answers]
        have stale := find?_ne_of_missed asking conditions.1 answers
        simp only [if_true, true_and]
        exact ⟨fun _ => conditions, fun _ => Ne.symm stale⟩
      · simp [own]
    · next unmet =>
      constructor
      · exact fun changed => absurd rfl changed
      · exact fun conditions => absurd conditions.2 unmet

theorem only_ne_cancelled (question : Question) (candidates : List Candidate) :
    only question candidates ≠ .error .cancelled := by
  rcases candidates with - | ⟨_, - | ⟨_, _⟩⟩ <;> simp [only]

/-- A strict resolution is reported as cancelled exactly when the signal was raised at some moment
up to its last poll. -/
theorem resolveSingle_eq_cancelled_iff (request : Request) (course : Course) :
    (resolveSingle model signal request course).1 = .error .cancelled ↔
      ∃ moment : Progress, moment.Before (resolve model signal request course).2.progress ∧
        signal.isRaised moment := by
  constructor
  · intro cancelled
    refine ⟨_, .refl _, ?_⟩
    rw [resolveSingle_eq] at cancelled
    dsimp only at cancelled
    split at cancelled
    · next raised => exact raised
    · exact absurd cancelled (only_ne_cancelled _ _)
  · rintro ⟨moment, before, raised⟩
    rw [resolveSingle_eq_never, if_pos (signal.stays _ _ before raised)]

/-- Whenever the signal is raised, a resolution gives the answer and makes the change to the cache
that it would without a signal, or the signal is raised and it gives no candidates and changes
nothing. A strict one says that it was cancelled exactly when the signal was raised by its last
poll, and else gives the result it would give without a signal. -/
theorem resolve_all_or_nothing (request : Request) (course : Course) :
    let result := resolve model signal request course
    let whole := resolve model .never request course
    let strict := (resolveSingle model signal request course).1
    ((result.1 = whole.1 ∧ result.2.cache = whole.2.cache) ∨
      (signal.isRaised result.2.progress ∧ result.1 = .nothing ∧ result.2.cache = course.cache)) ∧
    (strict = (resolveSingle model .never request course).1 ∨ strict = .error .cancelled) ∧
    (strict = .error .cancelled ↔
      ∃ moment : Progress, moment.Before result.2.progress ∧ signal.isRaised moment) ∧
    ∀ occurrence,
      result.2.cache.entries.find? occurrence ≠ course.cache.entries.find? occurrence ↔
        request.occurrence = some occurrence ∧ cached? model request course.cache = none ∧
          model.candidates request.toQuestion ≠ [] ∧ signal.isRaised course.progress = false ∧
          signal.isRaised course.progress.polled.computed = false := by
  intro result whole strict
  refine ⟨?_, ?_, resolveSingle_eq_cancelled_iff model signal request course,
    find?_resolve_ne_iff model signal request course⟩
  · rcases resolve_eq_never_or_cutShort model signal request course with same | cut
    · exact .inl ⟨congrArg Prod.fst same, congrArg (·.2.cache) same⟩
    · exact .inr ⟨cut.raised, cut.nothing, cut.cache_eq⟩
  · have reported : strict = _ := resolveSingle_eq_never model signal request course
    split at reported
    · exact .inr reported
    · exact .inl reported

theorem before_checkOne (strict : Bool) (request : Request) (course : Course) :
    course.progress.Before (checkOne model signal strict request course).2.progress := by
  unfold checkOne
  split
  · exact .refl _
  · rw [resolveSingle_eq]
    exact (before_resolve model signal request course).trans (Progress.before_polled _)

/-- Whether a check sees the signal raised when it has looked a request up. A request for an
unknown owner is not looked up. -/
def lookupCancelled (request : Request) (course : Course) : Bool :=
  (model.ownerKind? request.owner).isSome &&
    signal.isRaised (resolve model signal request course).2.progress

theorem checkOne_of_not_cancelled {request : Request} {course : Course} (strict : Bool)
    (quiet : lookupCancelled model signal request course = false) :
    checkOne model signal strict request course = checkOne model .never strict request course := by
  unfold checkOne
  cases known : model.ownerKind? request.owner with
  | none => rfl
  | some kind =>
    have quietAfter : signal.isRaised (resolve model signal request course).2.progress = false := by
      simpa [lookupCancelled, known] using quiet
    rcases resolve_eq_never_or_cutShort model signal request course with whole | cut
    · rw [whole] at quietAfter
      simp only [resolveSingle_eq, whole, quietAfter]
      rfl
    · exact absurd cut.raised (by simp [quietAfter])

/-- A cancelled lookup shows no problem, and whoever looks at the signal next sees it raised. -/
theorem checkOne_of_cancelled {request : Request} {course : Course} (strict : Bool)
    (cancelled : lookupCancelled model signal request course) :
    (checkOne model signal strict request course).1 = none ∧
      signal.isRaised (checkOne model signal strict request course).2.progress ∧
      (checkOne model signal strict request course).2.progress.Before
        (checkOne model .never strict request course).2.progress := by
  obtain ⟨known, raised⟩ : (model.ownerKind? request.owner).isSome ∧
      signal.isRaised (resolve model signal request course).2.progress := by
    simpa [lookupCancelled] using cancelled
  obtain ⟨kind, known⟩ := Option.isSome_iff_exists.mp known
  have sooner : (resolve model signal request course).2.progress.Before
      (resolve model .never request course).2.progress := by
    rcases resolve_eq_never_or_cutShort model signal request course with whole | cut
    · rw [whole]
      exact .refl _
    · exact cut.sooner
  simp only [checkOne, known, resolveSingle_eq, raised, if_true]
  exact ⟨rfl, signal.stays _ _ (Progress.before_polled _) raised,
    Nat.succ_le_succ sooner.1, sooner.2⟩

/-- The diagnostic of a request that has a problem. -/
def report (request : Request) (problem : Option Problem) : List Diagnostic :=
  problem.toList.map fun problem => { occurrence := request.occurrence, problem }

theorem checkEach_of_raised {course : Course} (strict : Bool) (requests : List Request)
    (nonempty : requests ≠ []) (raised : signal.isRaised course.progress) :
    (checkEach model signal strict requests course).1 = none := by
  cases requests with
  | nil => exact absurd rfl nonempty
  | cons request rest => simp [checkEach, Course.poll, raised]

theorem checkEach_cons_of_quiet {course : Course} (strict : Bool) (request : Request)
    (rest : List Request) (quiet : signal.isRaised course.progress = false) :
    checkEach model signal strict (request :: rest) course =
      let (problem, after) := checkOne model signal strict request course.polled
      let (diagnostics, last) := checkEach model signal strict rest after
      (diagnostics.map (report request problem ++ ·), last) := by
  simp [checkEach, Course.poll, Course.polled, quiet, report]

theorem before_checkEach (strict : Bool) (requests : List Request) (course : Course) :
    course.progress.Before (checkEach model signal strict requests course).2.progress := by
  induction requests generalizing course with
  | nil => exact .refl _
  | cons request rest ih =>
    cases atHead : signal.isRaised course.progress with
    | true =>
      simp only [checkEach, Course.poll, atHead, if_true]
      exact course.progress.before_polled
    | false =>
      have checked := before_checkOne model signal strict request course.polled
      rw [checkEach_cons_of_quiet model signal strict request rest atHead]
      exact (course.progress.before_polled.trans checked).trans (ih _)

/-- A check gives up when the signal is raised before it comes to the last request. Else it has found
what it would find without a signal, and only the last request is left to be looked up. -/
theorem checkEach_append_last (strict : Bool) (requests : List Request) (last : Request)
    (course : Course) :
    (checkEach model signal strict (requests ++ [last]) course).1 =
      let earlier := checkEach model .never strict requests course
      if signal.isRaised earlier.2.progress then none
      else earlier.1.map
        (· ++ report last (checkOne model signal strict last earlier.2.polled).1) := by
  induction requests generalizing course with
  | nil =>
    cases atHead : signal.isRaised course.progress with
    | true =>
      rw [List.nil_append, checkEach_of_raised model signal strict [last] (by simp) atHead]
      simp [checkEach, atHead]
    | false =>
      rw [List.nil_append, checkEach_cons_of_quiet model signal strict last [] atHead]
      simp [checkEach, atHead]
  | cons request rest ih =>
    -- the run without a signal, up to the last request
    let whole := checkOne model .never strict request course.polled
    have later := before_checkEach model .never strict rest whole.2
    have checked := before_checkOne model .never strict request course.polled
    rw [checkEach_cons_of_quiet model .never strict request rest rfl]
    dsimp only
    cases atHead : signal.isRaised course.progress with
    | true =>
      have raised := signal.stays _ _ ((course.progress.before_polled.trans checked).trans later) atHead
      rw [checkEach_of_raised model signal strict _ (by simp) atHead, if_pos raised]
    | false =>
      rw [List.cons_append, checkEach_cons_of_quiet model signal strict request _ atHead]
      dsimp only
      cases cancelled : lookupCancelled model signal request course.polled with
      | false =>
        rw [checkOne_of_not_cancelled model signal strict cancelled, ih]
        dsimp only
        split
        · rfl
        · simp [Option.map_map, Function.comp_def]
      | true =>
        obtain ⟨-, raised, sooner⟩ := checkOne_of_cancelled model signal strict cancelled
        rw [checkEach_of_raised model signal strict (rest ++ [last]) (by simp) raised,
          if_pos (signal.stays _ _ (sooner.trans later) raised), Option.map_none]

theorem isSome_checkEach_never (strict : Bool) (requests : List Request) (course : Course) :
    (checkEach model .never strict requests course).1.isSome := by
  induction requests generalizing course with
  | nil => rfl
  | cons request rest ih =>
    rw [checkEach_cons_of_quiet model .never strict request rest rfl]
    simpa using ih _

/-- A check whose signal is raised before it comes to the last request reports nothing. Raised
later, the signal can only keep the last request out of the report, if that one is looked up. -/
theorem check_append_last (strict : Bool) (requests : List Request) (last : Request)
    (course : Course) :
    let earlier := check model .never strict requests course
    (check model signal strict (requests ++ [last]) course).1 =
      if signal.isRaised earlier.2.progress then []
      else if lookupCancelled model signal last earlier.2.polled then earlier.1
      else (check model .never strict (requests ++ [last]) course).1 := by
  obtain ⟨earlier, found⟩ := Option.isSome_iff_exists.mp
    (isSome_checkEach_never model strict requests course)
  have cut := checkEach_append_last model signal strict requests last course
  have whole := checkEach_append_last model .never strict requests last course
  dsimp only at cut whole
  rw [found] at cut whole
  simp only [check, cut, whole, found]
  split
  · rfl
  · cases cancelled : lookupCancelled model signal last
        (checkEach model .never strict requests course).2.polled with
    | false => simp [checkOne_of_not_cancelled model signal strict cancelled]
    | true => simp [(checkOne_of_cancelled model signal strict cancelled).1, report]

/-- The signal is raised while the second of two requests is looked up, and the unknown owner of the
first one is reported all the same. -/
theorem check_reports_after_cancellation :
    let model := Model.build {} (Registry.ofDeclarations {} [.item { name := "Product" }]) 1
    let requests : List Request :=
      [{ ownerKind := .item, owner := "Missing", feature := "code" },
        { ownerKind := .item, owner := "Product", feature := "code" }]
    let signal := Signal.afterComputations 1
    let result := check model signal false requests {}
    signal.isRaised result.2.progress ∧
      result.1 = [{ occurrence := none, problem := .unknownOwner "Missing" }] := by
  decide

end Resolution

end ItemSchema
