import TxWorkload.Random.Supply

/-!
# SplitMix — a supply of words from a seed

The state grows by a constant step, and every state is mixed into one word.
-/

namespace TxWorkload
namespace Random
namespace SplitMix

/-- The step from one state to the next. -/
def step : UInt64 := 0x9E3779B97F4A7C15

/-- The word of a state. -/
def mix (z : UInt64) : UInt64 :=
  let z := (z ^^^ (z >>> 30)) * 0xBF58476D1CE4E5B9
  let z := (z ^^^ (z >>> 27)) * 0x94D049BB133111EB
  z ^^^ (z >>> 31)

/-- The first words that follow a state. -/
def words (state : UInt64) : Nat → Supply
  | 0 => []
  | n + 1 => mix (state + step) :: words (state + step) n

end SplitMix
end Random
end TxWorkload
