import ItemSchema.Proofs.Resolution.Outcome
import ItemSchema.Workspace
import Mathlib.Data.List.Induction

/-! Sessions: a workspace together with all the snapshots taken of it.

A session goes from action to action: edits of the files, rebuilds, snapshots,
edits reported to the cache, and queries on any snapshot taken so far. A query on
a snapshot that was never taken does nothing.
-/

set_option autoImplicit false

namespace ItemSchema

namespace Publication

/-- The published model is the last one that was built. -/
def IsCurrent (publication : Publication) : Prop :=
  publication.lastGeneration = publication.current.generation

@[simp] theorem settings_rebuild (publication : Publication) (registry : Registry) :
    (publication.rebuild registry).settings = publication.settings := by
  unfold rebuild publish
  dsimp only
  split <;> rfl

/-- A build that follows the published model replaces it. -/
theorem current_rebuild {publication : Publication} (isCurrent : publication.IsCurrent)
    (registry : Registry) :
    (publication.rebuild registry).current =
      .build publication.settings registry (publication.current.generation + 1) := by
  have numbered : publication.lastGeneration = publication.current.generation := isCurrent
  simp [rebuild, publish, Model.build, numbered]

theorem IsCurrent.rebuild {publication : Publication} (isCurrent : publication.IsCurrent)
    (registry : Registry) : (publication.rebuild registry).IsCurrent := by
  have numbered : (publication.rebuild registry).lastGeneration = publication.lastGeneration + 1 := by
    unfold Publication.rebuild publish
    dsimp only
    split <;> rfl
  rw [IsCurrent, current_rebuild isCurrent, numbered, isCurrent]
  rfl

end Publication

inductive Query where
  | resolve (request : Request)
  | goToDeclaration (request : Request)
  | checkOccurrences (strict : Bool) (requests : List Request)
  | resolveBatch (requests : List Request)

def Query.perform (workspace : Workspace) (snapshot : Model) (signal : Signal) : Query → Workspace
  | .resolve request => (workspace.resolve snapshot signal request).2
  | .goToDeclaration request => (workspace.goToDeclaration snapshot signal request).2
  | .checkOccurrences strict requests =>
      (workspace.checkOccurrences snapshot signal strict requests).2
  | .resolveBatch requests => (workspace.resolveBatch snapshot signal requests).2

/-- To the workspace, a query is a series of answers of its snapshot written to the cache. -/
theorem Query.perform_eq (query : Query) (workspace : Workspace) (snapshot : Model) (signal : Signal) :
    ∃ cache, workspace.cache.FilledBy snapshot cache ∧
      query.perform workspace snapshot signal = { workspace with cache } := by
  let course : Course := { cache := workspace.cache }
  cases query with
  | resolve request =>
    exact ⟨(Resolution.resolve snapshot signal request course).2.cache,
      Resolution.filledBy_resolve snapshot signal request course, rfl⟩
  | goToDeclaration request =>
    exact ⟨(Resolution.resolveSingle snapshot signal request course).2.cache,
      Resolution.filledBy_resolveSingle snapshot signal request course, rfl⟩
  | checkOccurrences strict requests =>
    exact ⟨(Resolution.check snapshot signal strict requests course).2.cache,
      Resolution.filledBy_checkEach snapshot signal strict requests course, rfl⟩
  | resolveBatch requests =>
    exact ⟨(Resolution.resolveAll snapshot signal requests course).2.cache,
      Resolution.filledBy_resolveAll snapshot signal requests course, rfl⟩

/-- One thing done in a session. Snapshots are known by their number, from zero. -/
inductive Action where
  | setFile (file : FileId) (declarations : List Declaration)
  | add (file : FileId) (declaration : Declaration)
  | removeFile (file : FileId)
  | markOutOfDate
  | rebuild
  | takeSnapshot
  | invalidate (occurrence : Occurrence)
  | invalidateScope (document : FileId) (scope : UInt32)
  | invalidateDocument (document : FileId)
  | invalidateAll
  | occurrenceChanged (occurrence : Occurrence)
  | ask (snapshot : Nat) (signal : Signal) (query : Query)

/-- The workspace after adding a declaration; a rejected one leaves it as it was. -/
def Workspace.addOrKeep (workspace : Workspace) (file : FileId) (declaration : Declaration) :
    Workspace :=
  match workspace.add file declaration with
  | .ok changed => changed
  | .error _ => workspace

structure Session where
  workspace : Workspace
  -- the snapshots taken so far, oldest first
  snapshots : List Model := []

namespace Session

def start (settings : Settings) : Session := { workspace := .start settings }

def takeSnapshot (session : Session) : Session :=
  let refreshed := session.workspace.refresh
  { workspace := refreshed, snapshots := session.snapshots ++ [refreshed.model] }

def updateCache (session : Session) (change : Cache → Cache) : Session :=
  { session with workspace := session.workspace.updateCache change }

def ask (session : Session) (snapshot : Nat) (signal : Signal) (query : Query) : Session :=
  match session.snapshots[snapshot]? with
  | some model => { session with workspace := query.perform session.workspace model signal }
  | none => session

def step (session : Session) : Action → Session
  | .setFile file declarations =>
      { session with workspace := (session.workspace.setFile file declarations).1 }
  | .add file declaration =>
      { session with workspace := session.workspace.addOrKeep file declaration }
  | .removeFile file => { session with workspace := session.workspace.removeFile file }
  | .markOutOfDate => { session with workspace := session.workspace.markOutOfDate }
  | .rebuild => { session with workspace := session.workspace.rebuild }
  | .takeSnapshot => session.takeSnapshot
  | .invalidate occurrence => session.updateCache (·.invalidate occurrence)
  | .invalidateScope document scope => session.updateCache (·.invalidateScope document scope)
  | .invalidateDocument document => session.updateCache (·.invalidateDocument document)
  | .invalidateAll => session.updateCache (·.invalidateAll)
  | .occurrenceChanged occurrence => session.updateCache (·.occurrenceChanged occurrence)
  | .ask snapshot signal query => session.ask snapshot signal query

def run (settings : Settings) (actions : List Action) : Session :=
  actions.foldl step (start settings)

theorem run_append (settings : Settings) (actions : List Action) (action : Action) :
    run settings (actions ++ [action]) = (run settings actions).step action := by
  simp [run]

/-- What holds before the first action, and after each action if it held before it, holds after
every run. -/
theorem run_induction (settings : Settings) (Holds : List Action → Session → Prop)
    (initially : Holds [] (start settings))
    (preserved : ∀ actions session action, Holds actions session →
      Holds (actions ++ [action]) (session.step action))
    (actions : List Action) : Holds actions (run settings actions) := by
  induction actions using List.reverseRecOn with
  | nil => exact initially
  | append_singleton actions action ih =>
    rw [run_append]
    exact preserved _ _ _ ih

end Session

end ItemSchema
