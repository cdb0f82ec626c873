import TxWorkload.Activity.Burst
import TxWorkload.Activity.Health

/-!
# Generation — a steady flow of transactions

Generation waits until a node answers, and then sends one transaction after another, with a random
pause between two of them, a burst now and then, and a statistics line from time to time. It ends
when the run is cancelled, and tells how many transactions it sent outside bursts.
-/

namespace TxWorkload
namespace Activity

open Routine (act draw iterate log mark sleepOrCancelled untilCancelled isCancelled)

/-- What a generation needs to know. -/
structure Plan where
  generator : Transaction.Generator
  network : Network
  bursts : Option Config.Bursts := none
  txInterval : Duration
  startupPoll : Duration
  statsInterval : Duration

namespace Plan

/-! ## Readiness -/

/-- One check of the network; the loop ends with `true` if a node answers, and with `false` if the
run is cancelled. -/
def readinessTurn (p : Plan) : Activity (Unit ⊕ Bool) := do
  if ← isCancelled then return .inr false
  else
    match ← untilCancelled (check p.network) with
    | none => return .inr false
    | some report =>
        if report.anyUp then
          log .info "✅ Blockchain is ready, starting transaction generation"
          return .inr true
        else if ← sleepOrCancelled p.startupPoll then return .inr false
        else return .inl ()

/-- Check the network until a node answers; tells whether one did before the run was cancelled. -/
def awaitReady (p : Plan) : Activity Bool := do
  log .info "⏳ Waiting for blockchain to be ready..."
  iterate () fun _ => readinessTurn p

/-! ## Pauses -/

/-- The shortest pause between two transactions. -/
def shortestPause : Duration := .ofSecs 1

/-- The greater of two numbers. -/
def greater (x y : Float) : Float :=
  if x < y then y else x

/-- The pause that an interval and a deviation of at most one second give: not below the shortest
pause, and the longest span if it is too large to be one. -/
def jittered (base : Duration) (deviation : Float) : Duration :=
  let secs := base.toSeconds + deviation
  (Duration.ofSeconds? (greater secs shortestPause.toSeconds)).getD .max

/-- A random pause around an interval. -/
def pause (base : Duration) : Random.Draw Duration := do
  let deviation ← Random.deviation
  return jittered base deviation

/-! ## The loop -/

/-- The state of the loop: the transactions sent so far, and when statistics were last written. -/
structure Progress where
  sent : Nat
  lastStats : Nat
  deriving DecidableEq, Repr

/-- Cast the dice for a burst, if it is time to, and send it. -/
def burst (p : Plan) (sent : Nat) : Activity Unit := do
  match p.bursts with
  | none => return ()
  | some b =>
      if Burst.isDue b sent then
        let size ← draw (Burst.roll b)
        mark (.rolled size)
        match size with
        | some size =>
            let _ ← Burst.run b p.generator p.network.endpoints size.toNat
            return ()
        | none => return ()
      else return ()

/-- Write statistics if the last ones are old enough; tells when they were last written. -/
def statistics (p : Plan) (lastStats : Nat) : Activity Nat := do
  let now ← act .clock
  if p.statsInterval.toNanos < now - lastStats then
    printStats
    act .clock
  else return lastStats

/-- One transaction, and what follows it up to the next one. -/
def turn (p : Plan) (s : Progress) : Activity (Progress ⊕ Nat) := do
  if ← isCancelled then return .inr s.sent
  else
    let (t, kind) ← draw p.generator.generate
    let _ ← submit p.network.endpoints t kind.name
    let sent := s.sent + 1
    p.burst sent
    let lastStats ← p.statistics s.lastStats
    let delay ← draw (pause p.txInterval)
    mark (.paced delay)
    if ← sleepOrCancelled delay then return .inr sent else return .inl ⟨sent, lastStats⟩

/-- Send transactions until the run is cancelled; tells how many were sent outside bursts. -/
def run (p : Plan) : Activity Nat := do
  if ← p.awaitReady then
    let now ← act .clock
    iterate (⟨0, now⟩ : Progress) p.turn
  else return 0

end Plan
end Activity
end TxWorkload
