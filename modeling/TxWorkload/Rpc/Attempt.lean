import TxWorkload.Error
import TxWorkload.Routine.Basic
import TxWorkload.Rpc.Retry

/-!
# Attempt — trying again

An operation is tried until it succeeds or no attempt is left. Behind a failure that is worth
waiting for there is a pause before the next attempt, behind any other failure there is none. Every
failure is written down.
-/

namespace TxWorkload
namespace Rpc

/-- Failures that know their wording, and whether they are worth waiting for. -/
class Retryable (ε : Type) where
  message : ε → String
  isRetryable : ε → Bool

instance : Retryable Error where
  message := Error.message
  isRetryable := Error.isRetryable

open Routine (iterate log sleep)

variable {S : Signature} {ε α : Type} [Retryable ε]

/-- Write down the failure of an attempt, counted from zero, and wait if that is worth it. -/
def afterFailure (r : Retry) (attempt : UInt32) (isLast : Bool) (e : ε) : Routine S Unit :=
  if Retryable.isRetryable e then
    if isLast then
      log .error s!"RPC request failed after {r.attempts} attempts: {Retryable.message e}"
    else do
      log .warn s!"RPC request failed (attempt {attempt.toNat + 1}): {Retryable.message e}"
      sleep (r.delayFor attempt)
  else log .warn (Retryable.message e)

/-- One attempt: it gives the final outcome, or the number of the next attempt. -/
def attempt (r : Retry) (op : UInt32 → Routine S (Except ε α)) (k : UInt32) :
    Routine S (UInt32 ⊕ Except ε α) := do
  match ← op k with
  | .ok a => return .inr (.ok a)
  | .error e =>
      let isLast := decide (r.attempts.toNat ≤ k.toNat + 1)
      afterFailure r k isLast e
      if isLast then return .inr (.error e) else return .inl (k + 1)

/-- Try an operation as often as the settings allow. -/
def withRetry (r : Retry) (op : UInt32 → Routine S (Except ε α)) : Routine S (Except ε α) :=
  iterate (0 : UInt32) (attempt r op)

end Rpc
end TxWorkload
