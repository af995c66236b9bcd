import ItemSchema.Resolution.Diagnostic

/-! The workspace: files of declarations, the model published from them, and one cache.

An edit makes the published model out of date, and the next snapshot rebuilds it.
A snapshot is a model: it stays what it was whatever is rebuilt later, while all
snapshots share the cache of the workspace.
-/

set_option autoImplicit false

namespace ItemSchema

/-- A published model, and what the next one is built with. -/
structure Publication where
  settings : Settings
  current : Model
  -- the number of the last build that was begun
  lastGeneration : Generation := 0
  deriving DecidableEq

def Publication.start (settings : Settings) : Publication :=
  { settings, current := .initial settings }

/-- Replace the published model by a newer one; an older one changes nothing. -/
def Publication.publish (publication : Publication) (model : Model) : Publication :=
  if publication.current.generation < model.generation then { publication with current := model }
  else publication

/-- Build a model under the next number and publish it. -/
def Publication.rebuild (publication : Publication) (registry : Registry) : Publication :=
  let generation := publication.lastGeneration + 1
  { publication with lastGeneration := generation }.publish
    (.build publication.settings registry generation)

structure Workspace where
  -- the accepted declarations of every file, in the order in which the files arrived
  files : Table FileId (List Declaration) := .empty
  publication : Publication
  cache : Cache := .empty
  -- the conflicts met by the last rebuild
  conflicts : List Conflict := []
  -- whether the files changed since the last rebuild
  outOfDate : Bool := false
  deriving DecidableEq

namespace Workspace

def start (settings : Settings) : Workspace := { publication := .start settings }

def settings (workspace : Workspace) : Settings := workspace.publication.settings

/-- Replace the declarations of a file, without the rejected ones, which are returned. -/
def setFile (workspace : Workspace) (file : FileId) (declarations : List Declaration) :
    Workspace × List BlankName :=
  ({ workspace with
      files := workspace.files.insert file (declarations.filter (·.isAccepted))
      outOfDate := true },
    declarations.filterMap (·.rejection?))

def add (workspace : Workspace) (file : FileId) (declaration : Declaration) :
    Except BlankName Workspace :=
  match declaration.rejection? with
  | some error => .error error
  | none =>
      .ok { workspace with
        files := workspace.files.insert file ((workspace.files.find? file).getD [] ++ [declaration])
        outOfDate := true }

def removeFile (workspace : Workspace) (file : FileId) : Workspace :=
  if workspace.files.contains file then
    { workspace with files := workspace.files.erase file, outOfDate := true }
  else workspace

def markOutOfDate (workspace : Workspace) : Workspace := { workspace with outOfDate := true }

/-- All declarations, file by file. -/
def declarations (workspace : Workspace) : List Declaration := workspace.files.values.flatten

/-- Register all declarations anew and publish the model; the kept answers are dropped. -/
def rebuild (workspace : Workspace) : Workspace :=
  let registry := ((Registry.ofSettings workspace.settings).registerAll workspace.declarations).1
  { workspace with
    publication := workspace.publication.rebuild registry
    conflicts := registry.conflicts
    cache := workspace.cache.invalidateAll
    outOfDate := false }

/-- The workspace with a model that is up to date. -/
def refresh (workspace : Workspace) : Workspace :=
  if workspace.outOfDate then workspace.rebuild else workspace

def model (workspace : Workspace) : Model := workspace.publication.current

/-- Run a query that goes through the cache of the workspace. -/
def ask {α : Type} (workspace : Workspace) (query : Course → α × Course) : α × Workspace :=
  let (result, course) := query { cache := workspace.cache }
  (result, { workspace with cache := course.cache })

def resolve (workspace : Workspace) (snapshot : Model) (signal : Signal) (request : Request) :
    Answer × Workspace :=
  workspace.ask (Resolution.resolve snapshot signal request)

def goToDeclaration (workspace : Workspace) (snapshot : Model) (signal : Signal) (request : Request) :
    Except Resolution.Failure Candidate × Workspace :=
  workspace.ask (Resolution.resolveSingle snapshot signal request)

/-- Resolve many requests; the answers come in the order of the requests. -/
def resolveBatch (workspace : Workspace) (snapshot : Model) (signal : Signal)
    (requests : List Request) : List Answer × Workspace :=
  workspace.ask (Resolution.resolveAll snapshot signal requests)

def checkOccurrences (workspace : Workspace) (snapshot : Model) (signal : Signal) (strict : Bool)
    (requests : List Request) : List Diagnostic × Workspace :=
  workspace.ask (Resolution.check snapshot signal strict requests)

/-- Change the cache directly, as a front end does on an edit. -/
def updateCache (workspace : Workspace) (change : Cache → Cache) : Workspace :=
  { workspace with cache := change workspace.cache }

end Workspace

end ItemSchema
