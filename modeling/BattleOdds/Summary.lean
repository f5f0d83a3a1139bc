import BattleOdds.Binary64

/-!
# Summaries

A summary of a sample list holds its least and greatest element, its mean and five percentiles. All
are taken from the list sorted by the total order on words, so a summary depends on the elements of
the list and not on their order, down to the last bit of the mean.
-/
namespace BattleOdds

/-- The distribution of one figure over the trials of a run. -/
structure Summary where
  min : Binary64 := 0.0
  p5 : Binary64 := 0.0
  p25 : Binary64 := 0.0
  p50 : Binary64 := 0.0
  p75 : Binary64 := 0.0
  p95 : Binary64 := 0.0
  mean : Binary64 := 0.0
  max : Binary64 := 0.0
deriving DecidableEq, Inhabited

/-- Where a percentile falls in a sorted list: between two neighbouring places, at a distance from
the lower one. -/
structure Rank where
  lower : Nat
  upper : Nat
  weight : Binary64
deriving DecidableEq

/-- The rank of a percentage among places from 0 to `last`. A percentage outside 0 to 100 counts as
the nearer of the two. -/
def Rank.ofPercentage (percentage : Binary64) (last : Nat) : Rank :=
  let position := (percentage / 100.0).clamp 0.0 1.0 * Binary64.ofNat last
  { lower := position.floor
    upper := position.ceil
    weight := position - Binary64.ofNat position.floor }

/-- The percentile of a sorted list, interpolated between the two places of its rank. -/
def percentile (sorted : Array Binary64) (percentage : Binary64) : Binary64 :=
  let rank := Rank.ofPercentage percentage (sorted.size - 1)
  let lower := sorted.getD rank.lower 0.0
  let upper := sorted.getD rank.upper 0.0
  lower + (upper - lower) * rank.weight

/-- The samples in the total order on words. -/
def sortSamples (samples : List Binary64) : List Binary64 := samples.mergeSort Binary64.totalLE

namespace Summary

/-- The summary of a sorted list. -/
def ofSorted (sorted : List Binary64) : Summary :=
  let places := sorted.toArray
  { min := places.getD 0 0.0
    p5 := percentile places 5.0
    p25 := percentile places 25.0
    p50 := percentile places 50.0
    p75 := percentile places 75.0
    p95 := percentile places 95.0
    mean := Binary64.sum sorted / Binary64.ofNat places.size
    max := places.getD (places.size - 1) 0.0 }

/-- The summary of a sample list; that of no samples is all zero. -/
def ofSamples (samples : List Binary64) : Summary :=
  if samples.isEmpty then {} else ofSorted (sortSamples samples)

/-- The summary of the samples that are present, if any is. -/
def ofPresent? (samples : List (Option Binary64)) : Option Summary :=
  let present := samples.filterMap id
  if present.isEmpty then none else some (ofSamples present)

end Summary

end BattleOdds
