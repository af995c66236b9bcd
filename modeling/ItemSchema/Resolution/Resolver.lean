import ItemSchema.Resolution.Cache
import ItemSchema.Resolution.Cancellation

/-! Resolution of requests through the cache, under a signal that may cancel it.

The signal is polled before anything is done and again before an answer is kept.
A cancelled resolution has no candidates and leaves the cache as it was.
-/

set_option autoImplicit false

namespace ItemSchema

/-- The candidates for a request, and the number of the cache entry that holds them, if one does. -/
structure Answer where
  candidates : List Candidate
  serial : Option Nat := none
  deriving DecidableEq

/-- The answer of a resolution that was cancelled. -/
def Answer.nothing : Answer := { candidates := [] }

def Answer.single? (answer : Answer) : Option Candidate :=
  match answer.candidates with
  | [only] => some only
  | _ => none

def Answer.isAmbiguous (answer : Answer) : Bool := 1 < answer.candidates.length

/-- What a query passes on from step to step: the cache and its own progress. -/
structure Course where
  cache : Cache := .empty
  progress : Progress := {}
  deriving DecidableEq

/-- Look at the signal: whether it is raised, and the course after the look. -/
def Course.poll (course : Course) (signal : Signal) : Bool × Course :=
  (signal.isRaised course.progress, { course with progress := course.progress.polled })

namespace Resolution

/-- Keep an answer that has candidates under the occurrence that asked, if one did. -/
def keep (model : Model) (request : Request) (candidates : List Candidate) (course : Course) :
    Answer × Course :=
  match request.occurrence with
  | some occurrence =>
      if candidates.isEmpty then ({ candidates }, course)
      else
        ({ candidates, serial := some course.cache.written },
          { course with
            cache := course.cache.put occurrence request.toQuestion model.generation candidates })
  | none => ({ candidates }, course)

/-- Compute an answer and keep it, unless the signal is raised by then. -/
def compute (model : Model) (signal : Signal) (request : Request) (course : Course) :
    Answer × Course :=
  let candidates := model.candidates request.toQuestion
  let (cancelled, course) := { course with progress := course.progress.computed }.poll signal
  if cancelled then (.nothing, course) else keep model request candidates course

def cached? (model : Model) (request : Request) (cache : Cache) : Option CacheEntry :=
  request.occurrence.bind fun occurrence =>
    cache.get? occurrence request.toQuestion model.generation

/-- Resolve a request, from the cache if it has the answer. -/
def resolve (model : Model) (signal : Signal) (request : Request) (course : Course) :
    Answer × Course :=
  let (cancelled, course) := course.poll signal
  if cancelled then (.nothing, course)
  else
    match cached? model request course.cache with
    | some entry => ({ candidates := entry.candidates, serial := some entry.serial }, course)
    | none => compute model signal request course

/-- Why a request does not lead to exactly one declaration. -/
inductive Failure where
  | unresolved (question : Question)
  | ambiguous (question : Question) (count : Nat)
  | cancelled
  deriving DecidableEq, Repr

def Failure.message : Failure → String
  | .unresolved question =>
      "cannot resolve '" ++ question.feature ++ "' on " ++ question.ownerKind.word ++ " '" ++
        question.owner ++ "'"
  | .ambiguous question count =>
      "'" ++ question.feature ++ "' on " ++ question.ownerKind.word ++ " '" ++ question.owner ++
        "' is ambiguous (" ++ toString count ++ " candidates)"
  | .cancelled => "resolution was cancelled"

/-- The one candidate of a list, or why there is no such. -/
def only (question : Question) : List Candidate → Except Failure Candidate
  | [] => .error (.unresolved question)
  | [candidate] => .ok candidate
  | candidates => .error (.ambiguous question candidates.length)

/-- Resolve a request to exactly one declaration. A signal raised by the end is the failure
that counts, whatever was found. -/
def resolveSingle (model : Model) (signal : Signal) (request : Request) (course : Course) :
    Except Failure Candidate × Course :=
  let (answer, course) := resolve model signal request course
  let (cancelled, course) := course.poll signal
  if cancelled then (.error .cancelled, course)
  else (only request.toQuestion answer.candidates, course)

def resolveAll (model : Model) (signal : Signal) : List Request → Course → List Answer × Course
  | [], course => ([], course)
  | request :: rest, course =>
      let (answer, course) := resolve model signal request course
      let (answers, course) := resolveAll model signal rest course
      (answer :: answers, course)

end Resolution

end ItemSchema
