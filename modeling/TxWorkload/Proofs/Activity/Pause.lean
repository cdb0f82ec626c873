import TxWorkload.Activity.Generation
import TxWorkload.Proofs.Binary64.Parts

/-!
# Pause — no pause between two transactions is shorter than a second

The random deviation may take an interval below zero, beyond all spans or out of the numbers. In
each of these cases the pause that is drawn still lasts a second or longer.
-/

namespace TxWorkload

namespace Duration

theorem toNanos_ofNanos? {n : Nat} {d : Duration} (h : ofNanos? n = some d) : d.toNanos = n := by
  unfold ofNanos? at h
  split at h
  · rename_i hsecs
    cases h
    have hnanos : n % nanosPerSec < UInt32.size :=
      Nat.lt_trans (Nat.mod_lt n (by decide)) (by decide)
    calc (UInt64.ofNat (n / nanosPerSec)).toNat * nanosPerSec +
          (UInt32.ofNat (n % nanosPerSec)).toNat
        = n / nanosPerSec * nanosPerSec + n % nanosPerSec := by
          rw [UInt64.toNat_ofNat_of_lt' hsecs, UInt32.toNat_ofNat_of_lt' hnanos]
      _ = n := Nat.div_add_mod' n nanosPerSec
  · cases h

/-- Seconds that are not below one make a span of a second or longer. -/
theorem le_toNanos_ofSeconds? {x : Float} (hx : ¬ x < 1.0) {d : Duration}
    (h : ofSeconds? x = some d) : nanosPerSec ≤ d.toNanos := by
  unfold ofSeconds? at h
  split at h
  · rename_i negative m q hparts
    rcases Binary64.parts_of_not_lt_one hx hparts with ⟨rfl, hm, hq⟩
    have hratio := Binary64.le_ratio hm hq
    simp only [Bool.false_and, Bool.false_eq_true, if_false] at h
    rw [toNanos_ofNanos? h]
    refine Binary64.le_roundDiv hratio.1 ?_
    rw [Nat.mul_comm]
    exact Nat.mul_le_mul_right _ hratio.2
  · cases h

end Duration

namespace Activity
namespace Plan

theorem not_greater_lt (x : Float) : ¬ greater x 1.0 < 1.0 := by
  unfold greater
  split
  · decide
  · assumption

theorem shortestPause_le_max : shortestPause ≤ Duration.max := by
  decide +kernel

/-- No interval and no deviation give a pause below the shortest one. -/
theorem shortestPause_le_jittered (base : Duration) (deviation : Float) :
    shortestPause ≤ jittered base deviation := by
  have hone : shortestPause.toSeconds = 1.0 := rfl
  unfold jittered
  dsimp only
  rw [hone]
  cases h : Duration.ofSeconds? (greater (base.toSeconds + deviation) 1.0) with
  | none => exact shortestPause_le_max
  | some d => exact Duration.le_toNanos_ofSeconds? (not_greater_lt _) h

/-- No pause that is drawn is below the shortest one. -/
theorem shortestPause_le_of_pause {base d : Duration} {s r : Random.Supply}
    (h : pause base s = .value d r) : shortestPause ≤ d := by
  simp only [pause, Bind.bind, Random.Draw.andThen] at h
  split at h
  · cases h
    exact shortestPause_le_jittered base _
  · cases h
  · cases h

end Plan
end Activity
end TxWorkload
