import TxWorkload.Routine.Basic

/-!
# Cancellation — giving work up when the run is cancelled

`guarded` lets every wait of a routine race against cancellation. A routine under `untilCancelled`
is not even started once the run is cancelled, and gives no result if a cancellation comes while it
waits; effects and replies that need no waiting are never cut off. Whatever races against
cancellation starts with a checkpoint.
-/

namespace TxWorkload
namespace Routine

variable {S : Signature}

/-- The result of one turn of a guarded loop, for the loop around it. -/
def guardedTurn {β σ : Type} : Option (σ ⊕ β) → σ ⊕ Option β
  | none => .inr none
  | some (.inl s) => .inl s
  | some (.inr b) => .inr (some b)

/-- The same routine with all its waits racing against cancellation; it has no result if a wait
loses. -/
def guarded {α : Type} : Routine S α → Routine S (Option α)
  | .done a => .done (some a)
  | .perform e next => .perform e fun b => (next b).guarded
  | .wait w next => .race w fun b =>
      match b with
      | none => .done none
      | some b => (next b).guarded
  | .race w next => .race w fun b =>
      match b with
      | none => .done none
      | some b => (next (some b)).guarded
  | .loop s body next =>
      .loop s (fun s => (body s).guarded.andThen fun turn => .done (guardedTurn turn)) fun b =>
        match b with
        | none => .done none
        | some b => (next b).guarded

/-- Run a routine until the run is cancelled. -/
def untilCancelled {α : Type} (p : Routine S α) : Routine S (Option α) := do
  if ← checkpoint then return none else p.guarded

/-- Wait for some time, or until the run is cancelled; tells whether it is cancelled. -/
def sleepOrCancelled (d : Duration) : Routine S Bool := do
  if ← checkpoint then return true
  else
    Routine.race (.timer d) fun _ => isCancelled

end Routine
end TxWorkload
