import TxWorkload.Duration

/-!
# Retry — how often a call is tried, and the pauses between

The pause doubles with every attempt, up to the greatest 32-bit factor, and saturates at the
longest span.
-/

namespace TxWorkload
namespace Rpc

/-- The greatest number of attempts, and the first pause. -/
structure Retry where
  maxAttempts : UInt32 := 3
  baseDelay : Duration := .ofSecs 1
  deriving DecidableEq

namespace Retry

/-- The factor of the pause behind an attempt, counted from zero: a power of two, or the greatest
32-bit number if the power does not fit. -/
def factor (attempt : UInt32) : UInt32 :=
  if attempt < 32 then 1 <<< attempt else 0xffffffff

/-- The pause behind a failed attempt, counted from zero. -/
def delayFor (r : Retry) (attempt : UInt32) : Duration :=
  r.baseDelay.scale (factor attempt)

/-- All pauses there can be, in order. -/
def delays (r : Retry) : List Duration :=
  (List.range (r.maxAttempts.toNat - 1)).map fun a => r.delayFor (UInt32.ofNat a)

/-- The number of attempts that are made at most; there is always one. -/
def attempts (r : Retry) : UInt32 :=
  if r.maxAttempts = 0 then 1 else r.maxAttempts

end Retry
end Rpc
end TxWorkload
