import ItemSchema.Proofs.Workspace.Session

/-! The cache never shows in an answer.

Whatever was edited, rebuilt, invalidated, cancelled or asked before, a resolution
on a snapshot finds what the model of that snapshot has for the question. Old and
new snapshots write over each other's entries in the one cache of the session, but
the number of a model tells their entries apart: no two models of a session share
a number.
-/

set_option autoImplicit false

namespace ItemSchema

def knownModels (publication : Publication) (snapshots : List Model) : List Model :=
  publication.current :: snapshots

/-- The numbers of the known models tell them apart, and the cache is sound for each of them. -/
structure CoherentWith (publication : Publication) (snapshots : List Model) (cache : Cache) : Prop where
  isCurrent : publication.IsCurrent
  latest : ∀ model ∈ snapshots, model.generation ≤ publication.current.generation
  told : ∀ first ∈ knownModels publication snapshots, ∀ second ∈ knownModels publication snapshots,
    first.generation = second.generation → first = second
  sound : ∀ model ∈ knownModels publication snapshots, cache.SoundFor model

namespace CoherentWith

variable {publication : Publication} {snapshots : List Model} {cache : Cache}

theorem start (settings : Settings) : CoherentWith (.start settings) [] .empty where
  isCurrent := rfl
  latest := by simp
  told := by
    intro first isFirst second isSecond _
    simp only [knownModels, List.mem_singleton] at isFirst isSecond
    rw [isFirst, isSecond]
  sound model _ := Cache.soundFor_of_entries_eq_empty rfl model

/-- A rebuilt model has a number that no snapshot has, and starts with an empty cache. -/
theorem rebuild (coherent : CoherentWith publication snapshots cache) (registry : Registry) :
    CoherentWith (publication.rebuild registry) snapshots cache.invalidateAll := by
  have numbered : (publication.rebuild registry).current.generation =
      publication.current.generation + 1 := by
    rw [Publication.current_rebuild coherent.isCurrent]
    rfl
  have older : ∀ model ∈ snapshots,
      model.generation < (publication.rebuild registry).current.generation := by
    intro model taken
    rw [numbered]
    exact Nat.lt_succ_of_le (coherent.latest model taken)
  refine ⟨coherent.isCurrent.rebuild registry, fun model taken => Nat.le_of_lt (older model taken), ?_,
    fun model _ => Cache.soundFor_of_entries_eq_empty rfl model⟩
  intro first isFirst second isSecond same
  rcases List.mem_cons.mp isFirst with rfl | firstTaken <;>
    rcases List.mem_cons.mp isSecond with rfl | secondTaken
  · rfl
  · exact absurd same.symm (Nat.ne_of_lt (older second secondTaken))
  · exact absurd same (Nat.ne_of_lt (older first firstTaken))
  · exact coherent.told first (List.mem_cons_of_mem _ firstTaken) second
      (List.mem_cons_of_mem _ secondTaken) same

theorem takeSnapshot (coherent : CoherentWith publication snapshots cache) :
    CoherentWith publication (snapshots ++ [publication.current]) cache := by
  have known : ∀ model ∈ knownModels publication (snapshots ++ [publication.current]),
      model ∈ knownModels publication snapshots := by
    intro model member
    simp only [knownModels, List.mem_cons, List.mem_append, List.not_mem_nil, or_false] at member ⊢
    tauto
  refine ⟨coherent.isCurrent, ?_, ?_, fun model member => coherent.sound model (known model member)⟩
  · intro model taken
    rcases List.mem_append.mp taken with taken | taken
    · exact coherent.latest model taken
    · exact Nat.le_of_eq (congrArg Model.generation (List.mem_singleton.mp taken))
  · intro first isFirst second isSecond same
    exact coherent.told first (known first isFirst) second (known second isSecond) same

theorem drop (coherent : CoherentWith publication snapshots cache) (covered : Occurrence → Bool) :
    CoherentWith publication snapshots (cache.drop covered) :=
  { coherent with sound := fun model member => (coherent.sound model member).drop covered }

theorem invalidateAll (coherent : CoherentWith publication snapshots cache) :
    CoherentWith publication snapshots cache.invalidateAll :=
  { coherent with sound := fun model _ => Cache.soundFor_of_entries_eq_empty rfl model }

/-- A snapshot, however old, may write its answers over any others. -/
theorem filled (coherent : CoherentWith publication snapshots cache) {snapshot : Model}
    (taken : snapshot ∈ snapshots) {after : Cache} (filled : cache.FilledBy snapshot after) :
    CoherentWith publication snapshots after where
  isCurrent := coherent.isCurrent
  latest := coherent.latest
  told := coherent.told
  sound model member :=
    (coherent.sound model member).filled
      (coherent.told model member snapshot (List.mem_cons_of_mem _ taken)) filled

end CoherentWith

/-- The signal is still quiet when a query that goes through the workspace returns. -/
def Signal.QuietThrough {α : Type} (signal : Signal) (workspace : Workspace)
    (query : Course → α × Course) : Prop :=
  signal.isRaised (query { cache := workspace.cache }).2.progress = false

namespace Session

def IsCoherent (session : Session) : Prop :=
  CoherentWith session.workspace.publication session.snapshots session.workspace.cache

theorem IsCoherent.refresh {session : Session} (coherent : session.IsCoherent) :
    CoherentWith session.workspace.refresh.publication session.snapshots
      session.workspace.refresh.cache := by
  unfold Workspace.refresh
  split
  · exact coherent.rebuild _
  · exact coherent

theorem IsCoherent.ask {session : Session} (coherent : session.IsCoherent) (number : Nat)
    (signal : Signal) (query : Query) : (session.ask number signal query).IsCoherent := by
  unfold Session.ask
  split
  · next snapshot found =>
    obtain ⟨cache, filled, performed⟩ := query.perform_eq session.workspace snapshot signal
    simp only [IsCoherent, performed]
    exact coherent.filled (List.mem_of_getElem? found) filled
  · exact coherent

theorem IsCoherent.step {session : Session} (coherent : session.IsCoherent) (action : Action) :
    (session.step action).IsCoherent := by
  cases action with
  | setFile | markOutOfDate => exact coherent
  | add file declaration =>
    simp only [Session.step, Workspace.addOrKeep, Workspace.add]
    cases declaration.rejection? <;> exact coherent
  | removeFile file =>
    simp only [Session.step, Workspace.removeFile]
    split <;> exact coherent
  | rebuild => exact CoherentWith.rebuild coherent _
  | takeSnapshot => exact coherent.refresh.takeSnapshot
  | invalidate | invalidateScope | invalidateDocument | occurrenceChanged =>
    exact CoherentWith.drop coherent _
  | invalidateAll => exact CoherentWith.invalidateAll coherent
  | ask number signal query => exact coherent.ask number signal query

theorem isCoherent_run (settings : Settings) (actions : List Action) :
    (run settings actions).IsCoherent :=
  run_induction settings (fun _ session => session.IsCoherent) (.start settings)
    (fun _ _ action coherent => coherent.step action) actions

/-- After every run, each snapshot taken in it answers from its own model: a resolution that is not
cancelled, on its own or in a batch, finds what the model has for the question. -/
theorem resolve_eq_uncached (settings : Settings) (actions : List Action) (snapshot : Model)
    (taken : snapshot ∈ (run settings actions).snapshots) (signal : Signal) :
    (∀ request,
      signal.QuietThrough (run settings actions).workspace
        (Resolution.resolve snapshot signal request) →
      ((run settings actions).workspace.resolve snapshot signal request).1.candidates =
        snapshot.candidates request.toQuestion) ∧
    (∀ requests,
      signal.QuietThrough (run settings actions).workspace
        (Resolution.resolveAll snapshot signal requests) →
      ((run settings actions).workspace.resolveBatch snapshot signal requests).1.map (·.candidates) =
        requests.map fun request => snapshot.candidates request.toQuestion) := by
  have sound : (run settings actions).workspace.cache.SoundFor snapshot :=
    (isCoherent_run settings actions).sound snapshot (List.mem_cons_of_mem _ taken)
  constructor
  · intro request quiet
    exact Resolution.candidates_resolve request _ sound quiet
  · intro requests quiet
    exact Resolution.candidates_resolveAll requests _ sound quiet

/-- Two snapshots with different attributes of one name ask at one occurrence in turn, and the
older one, which asked last before, asks again. -/
theorem resolve_eq_uncached_on_old_snapshot :
    let declared (typeRef : String) : Declaration :=
      .item { name := "Product", attributes := [{ name := "code", typeRef := some typeRef }] }
    let request : Request :=
      { ownerKind := .item, owner := "Product", feature := "code"
        occurrence := some ⟨⟨7⟩, 0, ⟨0, 4, by decide⟩⟩ }
    let actions : List Action :=
      [.add ⟨0⟩ (declared "String"), .takeSnapshot, .ask 0 .never (.resolve request),
        .add ⟨0⟩ (declared "Long"), .takeSnapshot, .ask 1 .never (.goToDeclaration request),
        .ask 0 .already (.resolve request), .ask 0 .never (.resolveBatch [request])]
    let snapshot := Model.build {} ((Registry.ofSettings {}).registerAll [declared "String"]).1 1
    snapshot ∈ (run {} actions).snapshots ∧
      ((run {} actions).workspace.resolve snapshot .never request).1.candidates =
        snapshot.candidates request.toQuestion := by
  intro declared request actions snapshot
  have taken : snapshot ∈ (run {} actions).snapshots := by decide
  exact ⟨taken, (resolve_eq_uncached {} actions snapshot taken .never).1 request rfl⟩

end Session

end ItemSchema
