import TxWorkload.Proofs.Activity.Bystander
import TxWorkload.Proofs.Routine.Quitting

/-!
# Quitting — what the tasks of a run do when it is cancelled

The watch quits wherever it rests: in a poll, in a pause, and at a checkpoint. In a run that is
cancelled before it starts, the watch and the generation find that out and quit; the generation
writes its first line on the way.
-/

namespace TxWorkload
namespace Activity

open Routine

/-! ## The watch -/

theorem polls_direct : Polls direct where
  raise := fun _ _ => trivial
  add := fun _ _ => trivial
  polled := fun _ _ => trivial
  ask := fun _ _ => trivial

/-- Wherever a turn of the watch is interrupted, it is the last one. -/
theorem interruptible_watchTurn (n : Network) (w : Config.Watch) :
    (watchTurn n w).Interruptible fun turn => ∃ b, turn = .inr b ∧ True := by
  -- The turn begins by looking, which is no rest.
  refine interruptible_bind (P := fun _ => False) ⟨trivial, fun _ => trivial⟩
    (fun _ h => h.elim) fun token => ?_
  cases token with
  | true => exact trivial
  | false =>
      refine interruptible_bind (interruptible_untilCancelled (within_poll polls_direct n))
        ?_ fun answer => ?_
      · rintro answer rfl
        exact ⟨(), rfl, trivial⟩
      · cases answer with
        | none => exact trivial
        | some outcome =>
            -- Writing down what the poll found cannot be interrupted.
            have hrecord : (record w outcome).Within outright :=
              within_record (fun _ _ _ => trivial) w outcome
            refine interruptible_bind (P := fun _ => False) (interruptible_outright hrecord)
              (fun _ h => h.elim) fun pause => ?_
            refine interruptible_bind (interruptible_sleepOrCancelled pause) ?_ fun token => ?_
            · rintro token rfl
              exact ⟨(), rfl, trivial⟩
            · cases token with
              | true => exact trivial
              | false => exact trivial

theorem interruptible_watch (n : Network) (w : Config.Watch) :
    (watch n w).Interruptible fun _ => True :=
  interruptible_iterate fun _ => interruptible_watchTurn n w

/-! ## A run that is cancelled before it starts -/

/-- A cancelled watch makes no poll. -/
theorem quits_watch (n : Network) (w : Config.Watch) : (watch n w).Quits True fun _ => True :=
  ⟨true, rfl, (), rfl, trivial⟩

/-- A cancelled generation makes no check. -/
theorem Plan.quits_run (p : Plan) : p.run.Quits True fun _ => True :=
  ⟨(), trivial, true, rfl, false, rfl, trivial⟩

end Activity
end TxWorkload
