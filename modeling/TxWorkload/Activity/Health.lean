import TxWorkload.Activity.Basic
import TxWorkload.Config.Basic
import TxWorkload.Text.Quoted

/-!
# Health — polling two nodes and watching them

A poll asks both nodes for their version and the validator for its height, and observes the height.
Any response counts as a sign of life. A poll fails if the height is there but no quantity. The
watch polls until the run is cancelled, sooner again while no node answers.
-/

namespace TxWorkload
namespace Activity

open Routine (ask iterate log mark sleepOrCancelled untilCancelled isCancelled)

/-- The two nodes of a network. -/
structure Network where
  validator : Endpoint
  sequencer : Endpoint
  deriving DecidableEq, Repr, Inhabited

namespace Network

/-- The nodes in the order in which transactions are offered to them. -/
def endpoints (n : Network) : List Endpoint := [n.validator, n.sequencer]

end Network

/-! ## Polls -/

/-- The height that a response gives: zero if it has no result. -/
def height (response : Option Rpc.Response) : Except Error UInt64 :=
  match response.bind (·.result) with
  | some (.text raw) =>
      match Hex.quantity? raw with
      | some n => .ok n
      | none => .error (.rpc s!"unparsable block number {Text.quoted raw}")
  | some other => .error (.rpc s!"unexpected block number {other.render}")
  | none => .ok 0

/-- Whether a node answers. -/
def isAlive (endpoint : Endpoint) : Activity Bool := do
  return (← ask ⟨endpoint.url, Rpc.clientVersion, .null⟩).isSome

/-- Ask for both versions and the height, and observe the height. -/
def measure (n : Network) : Activity (Except Error Report) := do
  let validatorUp ← isAlive n.validator
  let sequencerUp ← isAlive n.sequencer
  let answer ← ask ⟨n.validator.url, Rpc.blockNumber, .null⟩
  match height answer with
  | .ok height =>
      let _ ← observe height
      return .ok { validatorUp, sequencerUp, height }
  | .error cause => return .error cause

/-- One poll of the network. -/
def poll (n : Network) : Activity (Except Error Report) := do
  let outcome ← measure n
  mark (.polled outcome)
  return outcome

/-- One poll; if it fails, everything is taken to be down. -/
def check (n : Network) : Activity Report := do
  match ← poll n with
  | .ok report => return report
  | .error cause =>
      log .error s!"Health check failed: {cause.message}"
      return {}

/-! ## The watch -/

/-- The sign of a node that is up or down. -/
def sign (up : Bool) : String :=
  if up then "✅" else "❌"

/-- The pause after a report. -/
def pauseAfter (w : Config.Watch) (r : Report) : Duration :=
  if r.allDown then w.recovery else w.poll

/-- Write down the outcome of a poll; tells the pause before the next one. -/
def record (w : Config.Watch) : Except Error Report → Activity Duration
  | .ok r => do
      if 0 < r.height then
        log .info <|
          s!"🧱 Block #{r.height} | Validator: {sign r.validatorUp} | " ++
            s!"Sequencer: {sign r.sequencerUp}"
      if r.allDown then
        log .warn "⚠️  All endpoints down, waiting for recovery..."
      return pauseAfter w r
  | .error cause => do
      log .error s!"Monitor error: {cause.message}"
      return w.poll

/-- One turn of the watch; it ends when the run is cancelled. -/
def watchTurn (n : Network) (w : Config.Watch) : Activity (Unit ⊕ Unit) := do
  if ← isCancelled then return .inr ()
  else
    match ← untilCancelled (poll n) with
    | none => return .inr ()
    | some outcome =>
        let pause ← record w outcome
        if ← sleepOrCancelled pause then return .inr () else return .inl ()

/-- Poll the network until the run is cancelled. -/
def watch (n : Network) (w : Config.Watch) : Activity Unit :=
  iterate () fun _ => watchTurn n w

end Activity
end TxWorkload
