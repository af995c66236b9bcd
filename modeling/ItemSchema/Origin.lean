/-! Where a declaration stands: a numbered file and a span of byte offsets in it.

Schema files and the documents in which features occur share one numbering. A
span never ends before it starts.
-/

set_option autoImplicit false

namespace ItemSchema

structure FileId where
  index : UInt32
  deriving DecidableEq, Repr

def FileId.display (file : FileId) : String := "file#" ++ toString file.index.toNat

/-- A half-open span of byte offsets. -/
structure Span where
  start : UInt32
  stop : UInt32
  ordered : start ≤ stop
  deriving DecidableEq

/-- The span between two offsets, unless it would end before it starts. -/
def Span.ofOffsets? (start stop : UInt32) : Option Span :=
  if ordered : start ≤ stop then some ⟨start, stop, ordered⟩ else none

def Span.length (span : Span) : Nat := span.stop.toNat - span.start.toNat

structure Origin where
  file : FileId
  span : Span
  deriving DecidableEq

theorem Span.ofOffsets?_eq_some_iff (start stop : UInt32) (span : Span) :
    ofOffsets? start stop = some span ↔ span.start = start ∧ span.stop = stop := by
  constructor
  · intro found
    unfold ofOffsets? at found
    split at found
    · cases found; exact ⟨rfl, rfl⟩
    · cases found
  · rintro ⟨rfl, rfl⟩
    simp [ofOffsets?, span.ordered]

end ItemSchema
