import ItemSchema.Proofs.Registry.Registration
import ItemSchema.Proofs.Table
import ItemSchema.Proofs.Workspace.Session
import Mathlib.Data.List.Nodup

/-! A snapshot is what a build from scratch would give.

An observer who knows nothing of workspaces keeps a ledger of a session: the
declarations of every file as they were handed in, the number of rebuilds, and
the number of edits since the last one. Every snapshot can be computed from the
ledger alone.
-/

set_option autoImplicit false

namespace ItemSchema

abbrev RawFiles := List (FileId × List Declaration)

/-- Change the declarations of a file in its place; a new file goes to the end. -/
def RawFiles.change (files : RawFiles) (file : FileId)
    (update : List Declaration → List Declaration) : RawFiles :=
  if file ∈ files.map Prod.fst then
    files.map fun entry => if entry.1 = file then (file, update entry.2) else entry
  else files ++ [(file, update [])]

/-- What is left of every file when the rejected declarations are taken out. -/
def RawFiles.accepted (files : RawFiles) : RawFiles :=
  files.map fun entry => (entry.1, entry.2.filter (·.isAccepted))

/-- What can be said about a session from its actions alone. -/
structure Ledger where
  files : RawFiles := []
  rebuilds : Nat := 0
  -- the edits that took effect since the last rebuild
  edits : Nat := 0

namespace Ledger

def edited (ledger : Ledger) (files : RawFiles) : Ledger :=
  { ledger with files, edits := ledger.edits + 1 }

def rebuilt (ledger : Ledger) : Ledger :=
  { ledger with rebuilds := ledger.rebuilds + 1, edits := 0 }

/-- A file may be set at any time, but only an accepted declaration can be added to it and only
a present file removed. A snapshot rebuilds when there were edits since the last rebuild. -/
def record (ledger : Ledger) : Action → Ledger
  | .setFile file declarations => ledger.edited (ledger.files.change file fun _ => declarations)
  | .add file declaration =>
      if declaration.isAccepted then ledger.edited (ledger.files.change file (· ++ [declaration]))
      else ledger
  | .removeFile file =>
      if file ∈ ledger.files.map Prod.fst then ledger.edited (ledger.files.filter (·.1 ≠ file))
      else ledger
  | .markOutOfDate => ledger.edited ledger.files
  | .rebuild => ledger.rebuilt
  | .takeSnapshot => if 0 < ledger.edits then ledger.rebuilt else ledger
  | .invalidate _ | .invalidateScope _ _ | .invalidateDocument _ | .invalidateAll
  | .occurrenceChanged _ | .ask _ _ _ => ledger

def ofActions (actions : List Action) : Ledger := actions.foldl record {}

def declarations (ledger : Ledger) : List Declaration := ledger.files.flatMap Prod.snd

def registry (ledger : Ledger) (settings : Settings) : Registry :=
  .ofDeclarations settings ledger.declarations

/-- A workspace is in the state that a ledger describes. -/
structure Describes (ledger : Ledger) (settings : Settings) (workspace : Workspace) : Prop where
  settings_eq : workspace.settings = settings
  isCurrent : workspace.publication.IsCurrent
  files_eq : workspace.files.entries = ledger.files.accepted
  distinct : (ledger.files.map Prod.fst).Nodup
  numbered : workspace.model.generation = ledger.rebuilds
  outOfDate_eq : workspace.outOfDate = decide (0 < ledger.edits)
  upToDate : 0 < ledger.rebuilds → ledger.edits = 0 →
    workspace.model = .build settings (ledger.registry settings) ledger.rebuilds ∧
      workspace.conflicts = (ledger.registry settings).conflicts
  untouched : ledger.rebuilds = 0 →
    workspace.model = .initial settings ∧ workspace.conflicts = [] ∧
      (ledger.edits = 0 → ledger.files = [])

end Ledger

namespace RawFiles

theorem keys_accepted (files : RawFiles) : files.accepted.map Prod.fst = files.map Prod.fst := by
  simp [accepted, Function.comp_def]

/-- Changing raw declarations changes the accepted ones alike, where the two updates agree. -/
theorem accepted_change (files : RawFiles) (file : FileId)
    (update kept : List Declaration → List Declaration)
    (agree : ∀ raw, (update raw).filter (·.isAccepted) = kept (raw.filter (·.isAccepted)))
    (distinct : (files.map Prod.fst).Nodup) :
    (files.change file update).accepted =
      Table.place file (kept ((Table.lookup file files.accepted).getD [])) files.accepted := by
  have distinctAccepted : (files.accepted.map Prod.fst).Nodup := by
    rw [keys_accepted]
    exact distinct
  rw [Table.place_update file kept [] files.accepted distinctAccepted, keys_accepted]
  unfold change
  split
  · simp only [accepted, List.map_map]
    apply List.map_congr_left
    intro entry _
    by_cases same : entry.1 = file <;> simp [same, agree]
  · have fromNothing : (update []).filter (·.isAccepted) = kept [] := by simpa using agree []
    simp [accepted, fromNothing]

theorem nodup_change (files : RawFiles) (file : FileId)
    (update : List Declaration → List Declaration) (distinct : (files.map Prod.fst).Nodup) :
    ((files.change file update).map Prod.fst).Nodup := by
  unfold change
  split
  · have keys : (files.map fun entry => if entry.1 = file then (file, update entry.2) else entry).map
        Prod.fst = files.map Prod.fst := by
      rw [List.map_map]
      apply List.map_congr_left
      intro entry _
      by_cases same : entry.1 = file <;> simp [same]
    rw [keys]
    exact distinct
  · next absent =>
    simpa using List.Nodup.concat absent distinct

theorem accepted_filter (files : RawFiles) (file : FileId) :
    RawFiles.accepted (files.filter (·.1 ≠ file)) = files.accepted.filter (·.1 ≠ file) := by
  simp [accepted, List.filter_map, Function.comp_def]

end RawFiles

namespace Ledger

/-- What a workspace registers on a rebuild are the accepted ones of the raw declarations. -/
theorem Describes.registry_eq {ledger : Ledger} {settings : Settings} {workspace : Workspace}
    (describes : ledger.Describes settings workspace) :
    ((Registry.ofSettings workspace.settings).registerAll workspace.declarations).1 =
      ledger.registry settings := by
  have kept : workspace.declarations = ledger.declarations.filter (·.isAccepted) := by
    simp [Workspace.declarations, Table.values, describes.files_eq, declarations,
      RawFiles.accepted, List.flatMap_def, Function.comp_def]
  rw [kept, describes.settings_eq]
  exact Registry.ofDeclarations_filter_isAccepted settings ledger.declarations

namespace Describes

variable {ledger : Ledger} {settings : Settings} {workspace : Workspace}

theorem start (settings : Settings) : ({} : Ledger).Describes settings (.start settings) where
  settings_eq := rfl
  isCurrent := rfl
  files_eq := rfl
  distinct := List.nodup_nil
  numbered := rfl
  outOfDate_eq := rfl
  upToDate := by simp
  untouched _ := ⟨rfl, rfl, fun _ => rfl⟩

theorem withCache (describes : ledger.Describes settings workspace) (cache : Cache) :
    ledger.Describes settings { workspace with cache } where
  settings_eq := describes.settings_eq
  isCurrent := describes.isCurrent
  files_eq := describes.files_eq
  distinct := describes.distinct
  numbered := describes.numbered
  outOfDate_eq := describes.outOfDate_eq
  upToDate := describes.upToDate
  untouched := describes.untouched

theorem edited (describes : ledger.Describes settings workspace) {files : RawFiles}
    {table : Table FileId (List Declaration)} (same : table.entries = files.accepted)
    (distinct : (files.map Prod.fst).Nodup) :
    (ledger.edited files).Describes settings { workspace with files := table, outOfDate := true } where
  settings_eq := describes.settings_eq
  isCurrent := describes.isCurrent
  files_eq := same
  distinct := distinct
  numbered := describes.numbered
  outOfDate_eq := by simp [Ledger.edited]
  upToDate _ none := by simp [Ledger.edited] at none
  untouched never := by
    obtain ⟨initial, quiet, -⟩ := describes.untouched never
    exact ⟨initial, quiet, fun none => by simp [Ledger.edited] at none⟩

theorem rebuilt (describes : ledger.Describes settings workspace) :
    ledger.rebuilt.Describes settings workspace.rebuild := by
  have published : workspace.rebuild.publication =
      workspace.publication.rebuild (ledger.registry settings) := by
    simp only [Workspace.rebuild, describes.registry_eq]
  have built : workspace.rebuild.model =
      .build settings (ledger.registry settings) (ledger.rebuilds + 1) :=
    calc workspace.rebuild.model
      _ = (workspace.publication.rebuild (ledger.registry settings)).current := by
        rw [Workspace.model, published]
      _ = .build workspace.settings (ledger.registry settings) (workspace.model.generation + 1) :=
        Publication.current_rebuild describes.isCurrent _
      _ = .build settings (ledger.registry settings) (ledger.rebuilds + 1) := by
        rw [describes.settings_eq, describes.numbered]
  have conflicts : workspace.rebuild.conflicts = (ledger.registry settings).conflicts := by
    simp only [Workspace.rebuild, describes.registry_eq]
  refine ⟨?_, describes.isCurrent.rebuild _, describes.files_eq, describes.distinct, ?_, rfl,
    fun _ _ => ⟨built, conflicts⟩, by simp [Ledger.rebuilt]⟩
  · simpa [Workspace.rebuild, Workspace.settings] using describes.settings_eq
  · rw [built]
    rfl

/-- A snapshot rebuilds exactly when the ledger has edits since the last rebuild. -/
theorem refresh_eq (describes : ledger.Describes settings workspace) :
    workspace.refresh = if 0 < ledger.edits then workspace.rebuild else workspace := by
  simp [Workspace.refresh, describes.outOfDate_eq]

theorem refreshed (describes : ledger.Describes settings workspace) :
    (ledger.record .takeSnapshot).Describes settings workspace.refresh := by
  rw [describes.refresh_eq]
  simp only [record]
  split
  · exact describes.rebuilt
  · exact describes

theorem setFile (describes : ledger.Describes settings workspace) (file : FileId)
    (declarations : List Declaration) :
    (ledger.record (.setFile file declarations)).Describes settings
      (workspace.setFile file declarations).1 := by
  apply describes.edited
  · have changed := ledger.files.accepted_change file (fun _ => declarations)
      (fun _ => declarations.filter (·.isAccepted)) (fun _ => rfl) describes.distinct
    simp only [Table.insert, describes.files_eq, changed]
  · exact ledger.files.nodup_change file _ describes.distinct

theorem add (describes : ledger.Describes settings workspace) (file : FileId)
    (declaration : Declaration) :
    (ledger.record (.add file declaration)).Describes settings
      (workspace.addOrKeep file declaration) := by
  cases accepted : declaration.isAccepted with
  | false =>
    obtain ⟨error, rejected⟩ : ∃ error, declaration.rejection? = some error := by
      simpa [Declaration.isAccepted, Option.isSome_iff_exists] using accepted
    simpa [record, accepted, Workspace.addOrKeep, Workspace.add, rejected] using describes
  | true =>
    have unrejected : declaration.rejection? = none := Option.isNone_iff_eq_none.mp accepted
    simp only [record, accepted, if_true, Workspace.addOrKeep, Workspace.add, unrejected]
    apply describes.edited
    · have changed := ledger.files.accepted_change file (· ++ [declaration]) (· ++ [declaration])
        (by simp [accepted]) describes.distinct
      simp only [Table.insert, Table.find?, describes.files_eq, changed]
    · exact ledger.files.nodup_change file _ describes.distinct

theorem removeFile (describes : ledger.Describes settings workspace) (file : FileId) :
    (ledger.record (.removeFile file)).Describes settings (workspace.removeFile file) := by
  have contained : workspace.files.contains file ↔ file ∈ ledger.files.map Prod.fst := by
    rw [Table.contains_iff_mem_keys, Table.keys, describes.files_eq, RawFiles.keys_accepted]
  unfold Workspace.removeFile
  by_cases present : file ∈ ledger.files.map Prod.fst
  · simp only [record, present, contained.mpr present, if_true]
    apply describes.edited
    · rw [RawFiles.accepted_filter, ← describes.files_eq]
      rfl
    · exact describes.distinct.sublist (List.filter_sublist.map Prod.fst)
  · have absent : workspace.files.contains file = false := by
      simpa using mt contained.mp present
    simpa only [record, present, absent, Bool.false_eq_true, if_false] using describes

theorem step (describes : ledger.Describes settings workspace) (snapshots : List Model)
    (action : Action) :
    (ledger.record action).Describes settings
      (Session.step { workspace, snapshots } action).workspace := by
  cases action with
  | setFile file declarations => exact describes.setFile file declarations
  | add file declaration => exact describes.add file declaration
  | removeFile file => exact describes.removeFile file
  | markOutOfDate => exact describes.edited describes.files_eq describes.distinct
  | rebuild => exact describes.rebuilt
  | takeSnapshot => exact describes.refreshed
  | invalidate | invalidateScope | invalidateDocument | invalidateAll | occurrenceChanged =>
    exact describes.withCache _
  | ask number signal query =>
    simp only [Session.step, Session.ask, record]
    split
    · next snapshot found =>
      obtain ⟨cache, -, performed⟩ := query.perform_eq workspace snapshot signal
      rw [performed]
      exact describes.withCache cache
    · exact describes

end Describes

theorem ofActions_append (actions : List Action) (action : Action) :
    ofActions (actions ++ [action]) = (ofActions actions).record action := by
  simp [ofActions]

theorem describes_run (settings : Settings) (actions : List Action) :
    (ofActions actions).Describes settings (Session.run settings actions).workspace := by
  apply Session.run_induction settings
    (fun actions session => (ofActions actions).Describes settings session.workspace)
  · exact .start settings
  · intro actions session action describes
    rw [ofActions_append]
    exact describes.step session.snapshots action

theorem edits_takeSnapshot (ledger : Ledger) : (ledger.record .takeSnapshot).edits = 0 := by
  simp only [record]
  split
  · rfl
  · next none => exact Nat.eq_zero_of_not_pos none

/-- Once the model was rebuilt, a snapshot is the model of a registry filled from scratch with all
raw declarations, numbered by the rebuilds, and before that it is the initial model. Taking it
rebuilds the workspace exactly when an edit took effect since the last rebuild. -/
theorem snapshot_eq_fresh_build (settings : Settings) (actions : List Action) :
    let before := Session.run settings actions
    let session := Session.run settings (actions ++ [.takeSnapshot])
    let ledger := ofActions (actions ++ [.takeSnapshot])
    (0 < ledger.rebuilds →
      session.snapshots.getLast? =
        some (.build settings (ledger.registry settings) ledger.rebuilds) ∧
      session.workspace.conflicts = (ledger.registry settings).conflicts) ∧
    (ledger.rebuilds = 0 →
      session.snapshots.getLast? = some (.initial settings) ∧
      session.workspace.conflicts = [] ∧ ledger.files = []) ∧
    session.workspace =
      if 0 < (ofActions actions).edits then before.workspace.rebuild else before.workspace := by
  intro before session ledger
  have describes : ledger.Describes settings session.workspace := describes_run settings _
  have none : ledger.edits = 0 := by
    simp only [ledger, ofActions_append, edits_takeSnapshot]
  have taken : session = before.takeSnapshot := Session.run_append settings actions .takeSnapshot
  have last : session.snapshots.getLast? = some session.workspace.model := by
    simp [taken, Session.takeSnapshot]
  refine ⟨?_, ?_, ?_⟩
  · intro rebuilt
    obtain ⟨built, conflicts⟩ := describes.upToDate rebuilt none
    exact ⟨last.trans (congrArg some built), conflicts⟩
  · intro never
    obtain ⟨initial, conflicts, empty⟩ := describes.untouched never
    exact ⟨last.trans (congrArg some initial), conflicts, empty none⟩
  · rw [taken]
    exact (describes_run settings actions).refresh_eq

/-- A file is set, another one added to and removed, a rejected declaration handed in both ways,
and the model rebuilt twice. -/
theorem snapshot_eq_fresh_build_after_edits :
    let product : Declaration := .item { name := "Product", parent := some "Base" }
    let again : Declaration := .item { name := "Product", parent := some "Other" }
    let blank : Declaration := .item { name := " " }
    let actions : List Action :=
      [.add ⟨1⟩ product, .setFile ⟨2⟩ [blank, again], .add ⟨1⟩ blank, .rebuild, .removeFile ⟨3⟩,
        .takeSnapshot, .add ⟨3⟩ again, .removeFile ⟨3⟩]
    let registry := Registry.ofDeclarations {} [product, blank, again]
    (ofActions (actions ++ [.takeSnapshot])).rebuilds = 2 ∧ registry.conflicts.length = 1 ∧
      (Session.run {} (actions ++ [.takeSnapshot])).snapshots.getLast? =
        some (.build {} registry 2) := by
  intro product again blank actions registry
  have rebuilds : (ofActions (actions ++ [.takeSnapshot])).rebuilds = 2 := by decide
  have declared : (ofActions (actions ++ [.takeSnapshot])).declarations = [product, blank, again] := by
    decide
  have fresh := (snapshot_eq_fresh_build {} actions).1 (by rw [rebuilds]; decide)
  rw [rebuilds, Ledger.registry, declared] at fresh
  exact ⟨rebuilds, by decide, fresh.1⟩

end Ledger

end ItemSchema
