import TxWorkload.Activity.Submission
import TxWorkload.Config.Basic
import TxWorkload.Random.Chance
import TxWorkload.Transaction.Generator

/-!
# Burst — runs of closely spaced transactions

After every so many transactions dice are cast: with some probability there is a burst, whose size
is drawn from a range. A burst ends early if the run is cancelled, and tells how many transactions
it sent.
-/

namespace TxWorkload
namespace Activity

open Routine (draw iterate log mark sleepOrCancelled isCancelled)

namespace Burst

/-- Whether the dice are cast after the given number of transactions. -/
def isDue (b : Config.Bursts) (count : Nat) : Bool :=
  0 < count && count % Nat.max 1 b.every.toNat == 0

/-- The nearest number from zero to one; what is no number stays as it is. -/
def clamped (p : Float) : Float :=
  let p := if p < 0.0 then 0.0 else p
  if 1.0 < p then 1.0 else p

/-- Cast the dice: whether there is a burst, and of which size. -/
def roll (b : Config.Bursts) : Random.Draw (Option UInt64) := do
  if ← Random.chance (clamped b.probability) then
    let size ← Random.pick b.least b.most
    return some size
  else return none

/-- One turn of a burst that has sent some of its transactions. -/
def turn (b : Config.Bursts) (g : Transaction.Generator) (endpoints : List Endpoint)
    (size sent : Nat) : Activity (Nat ⊕ Nat) :=
  if sent < size then do
    if ← isCancelled then return .inr sent
    else
      let (t, kind) ← draw g.generate
      let _ ← submit endpoints t kind.burstName
      if ← sleepOrCancelled b.pause then return .inr (sent + 1) else return .inl (sent + 1)
  else return .inr sent

/-- Send a burst; tells how many transactions were sent. -/
def run (b : Config.Bursts) (g : Transaction.Generator) (endpoints : List Endpoint)
    (size : Nat) : Activity Nat := do
  log .info s!"🚀 Generating burst activity: {size} transactions"
  let sent ← iterate 0 (turn b g endpoints size)
  mark (.burstEnded sent)
  return sent

end Burst
end Activity
end TxWorkload
