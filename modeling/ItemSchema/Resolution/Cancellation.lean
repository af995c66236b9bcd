/-! Cancellation of queries.

A query polls its signal at fixed points. When a signal has been raised depends
on how far the query has come, and a raised signal stays raised.
-/

set_option autoImplicit false

namespace ItemSchema

/-- How far a query has come: the polls made and the answers computed so far. -/
structure Progress where
  polls : Nat := 0
  computations : Nat := 0
  deriving DecidableEq, Repr

/-- Both counts of a later progress are at least those of an earlier one. -/
def Progress.Before (earlier later : Progress) : Prop :=
  earlier.polls ≤ later.polls ∧ earlier.computations ≤ later.computations

def Progress.polled (progress : Progress) : Progress := { progress with polls := progress.polls + 1 }

def Progress.computed (progress : Progress) : Progress :=
  { progress with computations := progress.computations + 1 }

structure Signal where
  isRaised : Progress → Bool
  stays : ∀ earlier later : Progress, earlier.Before later → isRaised earlier → isRaised later

namespace Signal

/-- The signal of a query that is never cancelled. -/
def never : Signal where
  isRaised _ := false
  stays _ _ _ raised := raised

/-- The signal of a query that was cancelled before it began. -/
def already : Signal where
  isRaised _ := true
  stays _ _ _ raised := raised

def afterComputations (count : Nat) : Signal where
  isRaised progress := count ≤ progress.computations
  stays _ _ before raised := by
    simp only [decide_eq_true_eq] at raised ⊢
    exact Nat.le_trans raised before.2

end Signal

end ItemSchema
