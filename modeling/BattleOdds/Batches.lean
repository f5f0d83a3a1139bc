/-!
# Batches

A batched run cuts its trials into contiguous ranges that are as equal in size as can be: the first
ranges take the remainder of the division, one trial each.
-/
namespace BattleOdds

/-- The places from `start` up to and not including `stop`. -/
structure Span where
  start : Nat
  stop : Nat
deriving DecidableEq

namespace Span

def size (s : Span) : Nat := s.stop - s.start

/-- Spans of given sizes, each beginning where the one before it ends. -/
def consecutive (start : Nat) : List Nat → List Span
  | [] => []
  | n :: sizes => ⟨start, start + n⟩ :: consecutive (start + n) sizes

end Span

/-- The sizes of at most `batches` non-empty parts of `total`, the greater ones first. -/
def batchSizes (total batches : Nat) : List Nat :=
  let parts := min batches total
  (List.range parts).map fun i => total / parts + if i < total % parts then 1 else 0

/-- The ranges into which `total` places are cut. -/
def batchSpans (total batches : Nat) : List Span :=
  Span.consecutive 0 (batchSizes total batches)

/-- A batched run has this many batches, whatever works on them. -/
def batchCount : Nat := 32

end BattleOdds
