import TxWorkload.Random.Supply

/-!
# Chance — events and deviations with floating-point parameters

An event of probability one is certain and takes no word; any other event happens on the words
below its share of all words. A deviation is spread evenly between minus one and one.
-/

namespace TxWorkload
namespace Random

/-- The number of words on which an event of probability below one happens. -/
def share (p : Float) : UInt64 :=
  (p * 18446744073709551616.0).toUInt64

/-- Whether an event of probability `p` happens. -/
def chance (p : Float) : Draw Bool :=
  if p == 1.0 then pure true
  else if 0.0 ≤ p && p < 1.0 then do
    let w ← Draw.word
    return w < share p
  else Draw.abort .badProbability

/-- A number in `[0, 1)` with 52 random bits. -/
def unitFraction (word : UInt64) : Float :=
  (word >>> 12).toFloat / 4503599627370496.0

/-- The width of the interval of deviations, large enough for its upper end to be reached. -/
def deviationWidth : Float :=
  Float.ofBits 0x4000000000000001

/-- A number between minus one and one. -/
def deviation : Draw Float := do
  let w ← Draw.word
  return unitFraction w * deviationWidth + -1.0

end Random
end TxWorkload
