import Mathlib.Algebra.Group.Nat.Defs
import TxWorkload.Duration

/-!
# Duration — saturating multiplication

A multiple of a span is exact as long as there is a span of that length, and the longest span
otherwise. The nanoseconds that are carried into the seconds fit 64 bits in any case.
-/

namespace TxWorkload
namespace Duration

theorem toNanos_max : max.toNanos = 2 ^ 64 * 10 ^ 9 - 1 := by
  decide

/-- Every span is a number of seconds and a rest below one second. -/
theorem toNanos_lt (d : Duration) : d.toNanos < (d.secs.toNat + 1) * nanosPerSec := by
  rw [toNanos, Nat.succ_mul]
  exact Nat.add_lt_add_left d.nanos_lt _

theorem le_max (d : Duration) : d ≤ max := by
  change d.toNanos ≤ max.toNanos
  rw [toNanos_max]
  have hlt := d.toNanos_lt
  have hsecs : d.secs.toNat < 2 ^ 64 := d.secs.toNat_lt
  unfold nanosPerSec at hlt
  omega

/-- The product of the nanosecond parts of a multiple fits 64 bits. -/
theorem nanos_mul_lt (d : Duration) (factor : UInt32) :
    d.nanos.toNat * factor.toNat < 2 ^ 64 := by
  calc d.nanos.toNat * factor.toNat
      ≤ nanosPerSec * 2 ^ 32 :=
        Nat.mul_le_mul (Nat.le_of_lt d.nanos_lt) (Nat.le_of_lt factor.toNat_lt)
    _ < 2 ^ 64 := by decide

/-- The exact length of a multiple is its seconds, with those that are carried, and the rest. -/
theorem toNanos_mul (d : Duration) (k : Nat) :
    d.toNanos * k = (d.secs.toNat * k + d.nanos.toNat * k / nanosPerSec) * nanosPerSec +
      d.nanos.toNat * k % nanosPerSec := by
  calc d.toNanos * k
      = d.secs.toNat * k * nanosPerSec + d.nanos.toNat * k := by
        rw [toNanos, Nat.add_mul, Nat.mul_right_comm]
    _ = d.secs.toNat * k * nanosPerSec + (d.nanos.toNat * k / nanosPerSec * nanosPerSec +
          d.nanos.toNat * k % nanosPerSec) := by
        rw [Nat.div_add_mod']
    _ = _ := by
        rw [← Nat.add_assoc, ← Nat.add_mul]

/-- A multiple of a span is exact, unless that is longer than the longest span. -/
theorem toNanos_scale (d : Duration) (factor : UInt32) :
    (d.scale factor).toNanos = min (d.toNanos * factor.toNat) max.toNanos := by
  have hmul := d.toNanos_mul factor.toNat
  have hrest : d.nanos.toNat * factor.toNat % nanosPerSec < nanosPerSec :=
    Nat.mod_lt _ (by decide)
  have hmax : max.toNanos + 1 = UInt64.size * nanosPerSec := by decide
  -- The seconds with those that are carried fit 64 bits exactly if there is a span of the product.
  rw [scale]
  split
  · rename_i hfits
    have hle : d.toNanos * factor.toNat ≤ max.toNanos := by
      unfold nanosPerSec at *
      omega
    rw [Nat.min_eq_left hle, toNanos, UInt64.toNat_ofNat_of_lt' hfits,
      UInt32.toNat_ofNat_of_lt' (Nat.lt_trans hrest (by decide)), hmul]
  · rename_i hfits
    have hle : max.toNanos ≤ d.toNanos * factor.toNat := by
      unfold nanosPerSec at *
      omega
    rw [Nat.min_eq_right hle]

end Duration
end TxWorkload
