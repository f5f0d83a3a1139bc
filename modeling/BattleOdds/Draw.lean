import BattleOdds.Binary64

/-!
# Random draws

A generator is one 64-bit word. A draw adds a fixed odd stride to it and mixes the sum into the
drawn word, so `n` draws move the word by `n` strides. All randomness of a trial is drawn through
`Draw`, which threads the generator and nothing else.
-/
namespace BattleOdds

/-- The word that all later draws follow from. -/
structure Generator where
  state : UInt64
deriving DecidableEq

namespace Generator

/-- What each draw adds to the state. It is odd, so the states repeat only after `2 ^ 64` draws. -/
def stride : UInt64 := 0x9e3779b97f4a7c15

/-- A shifted copy of the word xored into it. -/
def xorShift (k z : UInt64) : UInt64 := z ^^^ (z >>> k)

/-- The drawn word of a state: two rounds of xor-shift and an odd factor, and a last xor-shift. -/
def mix (z : UInt64) : UInt64 :=
  xorShift 31 (xorShift 27 (xorShift 30 z * 0xbf58476d1ce4e5b9) * 0x94d049bb133111eb)

def ofSeed (seed : UInt64) : Generator := ⟨seed⟩

/-- The generator after one draw. -/
def advance (g : Generator) : Generator := ⟨g.state + stride⟩

/-- The word that the next draw yields. -/
def output (g : Generator) : UInt64 := mix g.advance.state

/-- The generator of one batch of a run: the offset seed is mixed once, so that neighbouring batches
do not share a stretch of draws. -/
def substream (seed index : UInt64) : Generator := ofSeed (ofSeed (seed + index)).output

end Generator

/-- A computation that may draw. -/
abbrev Draw := StateM Generator

namespace Draw

/-- One draw. -/
def word : Draw UInt64 := fun g => (g.output, g.advance)

/-- The distance of two neighbouring unit draws, `2 ^ -53`. -/
def unitStep : Binary64 := ⟨0x3ca0000000000000⟩

/-- The top 53 bits of a word as a multiple of `unitStep`, so a figure in `[0, 1)`. -/
def unitOfWord (w : UInt64) : Binary64 := Binary64.ofUInt64 (w >>> 11) * unitStep

/-- A uniform figure in `[0, 1)`. -/
def unit : Draw Binary64 := unitOfWord <$> word

/-- The figure of `[lo, hi)` that a unit draw picks. An empty range and a result that rounds up to
`hi` both give `lo`. -/
def scale (lo hi unit : Binary64) : Binary64 :=
  if hi ≤ lo then lo
  else
    let value := lo + (hi - lo) * unit
    if hi ≤ value then lo else value

/-- A uniform figure in `[lo, hi)`. It takes one draw whatever the bounds are, so that the draws
that follow do not depend on magnitudes. -/
def within (lo hi : Binary64) : Draw Binary64 := scale lo hi <$> unit

/-- The roll of a force lies between two fifths of its strength and the whole of it. -/
def forceRoll (strength : Binary64) : Draw Binary64 := within (0.4 * strength) strength

/-- The variance of an effect on infrastructure or units. -/
def variance : Draw Binary64 := within 0.85 1.05

/-- The results of `n` repetitions, in order. -/
def times (draw : Draw α) : Nat → Draw (List α)
  | 0 => pure []
  | n + 1 => do
    let first ← draw
    let rest ← times draw n
    pure (first :: rest)

end Draw

end BattleOdds
