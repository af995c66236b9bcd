import ItemSchema.Resolution.Resolver

/-! Diagnostics for occurrences that do not lead to one declaration. -/

set_option autoImplicit false

namespace ItemSchema

inductive Severity where
  | error
  | warning
  deriving DecidableEq, Repr

def Severity.word : Severity → String
  | .error => "error"
  | .warning => "warning"

inductive Problem where
  | unresolved (question : Question)
  | unknownOwner (owner : String)
  | ambiguous (question : Question) (count : Nat)
  deriving DecidableEq, Repr

namespace Problem

def severity : Problem → Severity
  | .unresolved _ => .error
  | .unknownOwner _ => .error
  | .ambiguous _ _ => .warning

def code : Problem → String
  | .unresolved _ => "E0001"
  | .unknownOwner _ => "E0002"
  | .ambiguous _ _ => "W0001"

def message : Problem → String
  | .unresolved question => (Resolution.Failure.unresolved question).message
  | .unknownOwner owner => "unknown type '" ++ owner ++ "'"
  | .ambiguous question count => (Resolution.Failure.ambiguous question count).message

end Problem

structure Diagnostic where
  occurrence : Option Occurrence
  problem : Problem
  deriving DecidableEq

namespace Resolution

/-- The problem that the outcome of a strict resolution shows. Several candidates are one
only in a strict check, and a cancellation never is. -/
def problem? (strict : Bool) : Except Failure Candidate → Option Problem
  | .ok _ => none
  | .error (.unresolved question) => some (.unresolved question)
  | .error (.ambiguous question count) => if strict then some (.ambiguous question count) else none
  | .error .cancelled => none

/-- Check one request; its owner must be known before its feature is resolved. -/
def checkOne (model : Model) (signal : Signal) (strict : Bool) (request : Request) (course : Course) :
    Option Problem × Course :=
  match model.ownerKind? request.owner with
  | none => (some (.unknownOwner request.owner), course)
  | some _ =>
      let (outcome, course) := resolveSingle model signal request course
      (problem? strict outcome, course)

/-- Check requests in order. There is no result when the signal is raised before one of them. -/
def checkEach (model : Model) (signal : Signal) (strict : Bool) :
    List Request → Course → Option (List Diagnostic) × Course
  | [], course => (some [], course)
  | request :: rest, course =>
      let (cancelled, course) := course.poll signal
      if cancelled then (none, course)
      else
        let (problem, course) := checkOne model signal strict request course
        let (diagnostics, course) := checkEach model signal strict rest course
        let found := problem.toList.map fun problem => { occurrence := request.occurrence, problem }
        (diagnostics.map (found ++ ·), course)

/-- The diagnostics of a list of requests; a check that was given up reports nothing. -/
def check (model : Model) (signal : Signal) (strict : Bool) (requests : List Request)
    (course : Course) : List Diagnostic × Course :=
  let (diagnostics, course) := checkEach model signal strict requests course
  (diagnostics.getD [], course)

end Resolution

end ItemSchema
