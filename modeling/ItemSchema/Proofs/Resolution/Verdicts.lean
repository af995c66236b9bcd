import ItemSchema.Proofs.Resolution.Cancellation

/-! What a check says about each request.

The verdict on a request is told from the model alone: whether its owner is known,
and how many candidates there are. The requests of a check share one cache and write
to it on the way, under occurrences that may be the same for several of them. But a
sound cache stays sound, and so no verdict depends on what it holds or on the other
requests.
-/

set_option autoImplicit false

namespace ItemSchema

/-- Whether a name is that of an item, a relation or an enumeration. -/
def Model.hasOwner (model : Model) (name : String) : Bool :=
  model.items.contains name || model.relations.contains name || model.enumerations.contains name

theorem Model.isSome_ownerKind? (model : Model) (name : String) :
    (model.ownerKind? name).isSome = model.hasOwner name := by
  unfold ownerKind? hasOwner
  cases model.items.contains name <;> cases model.relations.contains name <;>
    cases model.enumerations.contains name <;> rfl

namespace Resolution

/-- The problem with a question, if there is one. -/
def verdict? (model : Model) (strict : Bool) (question : Question) : Option Problem :=
  let found := model.candidates question
  if !model.hasOwner question.owner then some (.unknownOwner question.owner)
  else if found = [] then some (.unresolved question)
  else if strict && 1 < found.length then some (.ambiguous question found.length)
  else none

/-- The diagnostics of a request: at most one, at the occurrence that asks. -/
def verdict (model : Model) (strict : Bool) (request : Request) : List Diagnostic :=
  report request (verdict? model strict request.toQuestion)

theorem problem?_only (strict : Bool) (question : Question) (candidates : List Candidate) :
    problem? strict (only question candidates) =
      if candidates = [] then some (.unresolved question)
      else if strict && 1 < candidates.length then some (.ambiguous question candidates.length)
      else none := by
  match candidates with
  | [] => rfl
  | [_] => simp [only, problem?]
  | _ :: _ :: _ => simp [only, problem?]

variable {model : Model} {signal : Signal}

/-- A check of one request that is not cancelled answers from the model alone. -/
theorem problem_checkOne (strict : Bool) (request : Request) (course : Course)
    (sound : course.cache.SoundFor model)
    (live : signal.isRaised (checkOne model signal strict request course).2.progress = false) :
    (checkOne model signal strict request course).1 = verdict? model strict request.toQuestion := by
  have known := model.isSome_ownerKind? request.owner
  unfold checkOne at live ⊢
  cases kind : model.ownerKind? request.owner with
  | none =>
    rw [kind] at known
    simp [verdict?, ← known]
  | some found =>
    rw [kind] at known live
    simp only [resolveSingle_eq] at live ⊢
    have quiet := signal.quiet_before (Progress.before_polled _) live
    rw [candidates_resolve request course sound quiet, quiet]
    simp [verdict?, ← known, problem?_only]

theorem checkEach_eq_verdicts (strict : Bool) (requests : List Request) (course : Course)
    (sound : course.cache.SoundFor model)
    (live : signal.isRaised (checkEach model signal strict requests course).2.progress = false) :
    (checkEach model signal strict requests course).1 =
      some (requests.flatMap (verdict model strict)) := by
  induction requests generalizing course with
  | nil => rfl
  | cons request rest ih =>
    have quiet := signal.quiet_before (before_checkEach model signal strict _ course) live
    rw [checkEach_cons_of_quiet model signal strict request rest quiet] at live ⊢
    have liveOne := signal.quiet_before (before_checkEach model signal strict rest _) live
    have soundAfter := sound.filled (fun _ => rfl)
      (filledBy_checkOne model signal strict request course.polled)
    simp only [ih _ soundAfter live, problem_checkOne strict request course.polled sound liveOne]
    rfl

/-- A check that starts from a sound cache and returns before the signal is raised. -/
structure Undisturbed (model : Model) (signal : Signal) (strict : Bool) (requests : List Request)
    (course : Course) : Prop where
  sound : course.cache.SoundFor model
  live : signal.isRaised (check model signal strict requests course).2.progress = false

namespace Undisturbed

variable {strict : Bool} {requests : List Request} {course : Course}

theorem check_eq (undisturbed : Undisturbed model signal strict requests course) :
    (check model signal strict requests course).1 = requests.flatMap (verdict model strict) := by
  have found := checkEach_eq_verdicts strict requests course undisturbed.sound undisturbed.live
  simp [check, found]

theorem sound_after (undisturbed : Undisturbed model signal strict requests course) :
    (check model signal strict requests course).2.cache.SoundFor model :=
  undisturbed.sound.filled (fun _ => rfl) (filledBy_checkEach model signal strict requests course)

end Undisturbed

/-- The occurrences have no part in what the problems are. -/
theorem problems_verdicts (model : Model) (strict : Bool) (requests : List Request) :
    (requests.flatMap (verdict model strict)).map (·.problem) =
      (requests.map (·.toQuestion)).flatMap fun question =>
        (verdict? model strict question).toList := by
  rw [List.map_flatMap, List.flatMap_map]
  simp [verdict, report, Function.comp_def]

theorem verdict_lenient (model : Model) (request : Request) :
    verdict model false request =
      (verdict model true request).filter (·.problem.severity ≠ .warning) := by
  unfold verdict verdict?
  dsimp only
  split
  · rfl
  · split
    · rfl
    · cases decide (1 < (model.candidates request.toQuestion).length) <;> rfl

theorem labels_verdict (model : Model) (strict : Bool) (request : Request) :
    (verdict model strict request).map (fun said =>
        (said.occurrence, said.problem.code, said.problem.severity)) =
      if !model.hasOwner request.owner then [(request.occurrence, "E0002", .error)]
      else if model.candidates request.toQuestion = [] then [(request.occurrence, "E0001", .error)]
      else if strict && 1 < (model.candidates request.toQuestion).length then
        [(request.occurrence, "W0001", .warning)]
      else [] := by
  unfold verdict verdict?
  dsimp only
  split
  · rfl
  · split
    · rfl
    · split <;> rfl

/-- A check says about every request, in order and at its occurrence, what the model alone tells: that
its owner is unknown, that it has no candidates or, if it is strict, that it has several. So it does
not matter what a sound cache holds, at which occurrences the questions are asked or whether they were
checked before. A lenient check leaves out the warnings of a strict one, and the diagnostics of two
lists, one after the other, are those of both. -/
theorem check_told_by_model {model : Model} {signal : Signal} {strict : Bool} {requests : List Request}
    {course : Course} (undisturbed : Undisturbed model signal strict requests course) :
    let result := check model signal strict requests course
    result.1 = requests.flatMap (verdict model strict) ∧
    result.1.map (fun said => (said.occurrence, said.problem.code, said.problem.severity)) =
      (requests.flatMap fun request =>
        if !model.hasOwner request.owner then [(request.occurrence, "E0002", .error)]
        else if model.candidates request.toQuestion = [] then [(request.occurrence, "E0001", .error)]
        else if strict && 1 < (model.candidates request.toQuestion).length then
          [(request.occurrence, "W0001", .warning)]
        else []) ∧
    (∀ otherSignal otherCourse, Undisturbed model otherSignal strict requests otherCourse →
      (check model otherSignal strict requests otherCourse).1 = result.1) ∧
    (∀ otherSignal others otherCourse, Undisturbed model otherSignal strict others otherCourse →
      others.map (·.toQuestion) = requests.map (·.toQuestion) →
      (check model otherSignal strict others otherCourse).1.map (·.problem) =
        result.1.map (·.problem)) ∧
    (∀ otherSignal next, next.cache = result.2.cache →
      otherSignal.isRaised (check model otherSignal strict requests next).2.progress = false →
      (check model otherSignal strict requests next).1 = result.1) ∧
    (strict → ∀ otherSignal otherCourse, Undisturbed model otherSignal false requests otherCourse →
      (check model otherSignal false requests otherCourse).1 =
        result.1.filter (·.problem.severity ≠ .warning)) ∧
    ∀ otherSignal others otherCourse jointSignal jointCourse,
      Undisturbed model otherSignal strict others otherCourse →
      Undisturbed model jointSignal strict (requests ++ others) jointCourse →
      (check model jointSignal strict (requests ++ others) jointCourse).1 =
        result.1 ++ (check model otherSignal strict others otherCourse).1 := by
  intro result
  have said : result.1 = requests.flatMap (verdict model strict) := undisturbed.check_eq
  refine ⟨said, ?_, ?_, ?_, ?_, ?_, ?_⟩
  · rw [said, List.map_flatMap]
    simp only [labels_verdict]
  · intro otherSignal otherCourse other
    rw [other.check_eq, said]
  · intro otherSignal others otherCourse other sameQuestions
    rw [other.check_eq, said, problems_verdicts, problems_verdicts, sameQuestions]
  · intro otherSignal next left live
    have again : Undisturbed model otherSignal strict requests next :=
      ⟨left ▸ undisturbed.sound_after, live⟩
    rw [again.check_eq, said]
  · rintro rfl otherSignal otherCourse lenient
    rw [lenient.check_eq, said, List.filter_flatMap]
    exact List.flatMap_congr fun request _ => verdict_lenient model request
  · intro otherSignal others otherCourse jointSignal jointCourse other joint
    rw [joint.check_eq, said, other.check_eq, List.flatMap_append]

/-- Three requests at one occurrence, which has an answer to one of them: an unknown owner, an attribute
whose name is also a role, and a feature that nothing declares. -/
theorem check_told_by_model_at_one_occurrence :
    let model := Model.build {} (Registry.ofDeclarations {}
      [.item { name := "Product", attributes := [{ name := "code" }] },
        .relation
          { name := "Codes", source := .role "Code" "Code", target := .role "products" "Product" }]) 1
    let occurrence : Occurrence := ⟨⟨1⟩, 0, ⟨0, 4, by decide⟩⟩
    let ask (owner feature : String) : Request :=
      { ownerKind := .item, owner, feature, occurrence := some occurrence }
    let requests := [ask "Missing" "code", ask "Product" "code", ask "Product" "name"]
    let code := (ask "Product" "code").toQuestion
    let course : Course := { cache := Cache.empty.put occurrence code 1 (model.candidates code) }
    let result := check model .never true requests course
    Undisturbed model .never true requests course ∧
      result.1 = requests.flatMap (verdict model true) ∧
      result.1.map (·.problem) =
        [.unknownOwner "Missing", .ambiguous code 2, .unresolved (ask "Product" "name").toQuestion] ∧
      (check model .never false requests {}).1 = result.1.filter (·.problem.severity ≠ .warning) := by
  intro model occurrence ask requests code course result
  have empty : Cache.empty.SoundFor model := Cache.soundFor_of_entries_eq_empty rfl model
  have undisturbed : Undisturbed model .never true requests course :=
    ⟨empty.put (fun _ => rfl) occurrence code, rfl⟩
  have lenient : Undisturbed model .never false requests {} := ⟨empty, rfl⟩
  obtain ⟨said, -, -, -, -, warned, -⟩ := check_told_by_model undisturbed
  exact ⟨undisturbed, said, by decide, warned rfl .never {} lenient⟩

end Resolution

end ItemSchema
