import TxWorkload.Proofs.Duration
import TxWorkload.Rpc.Retry

/-!
# Backoff — how the pauses between attempts grow

There are two bounds on a pause: the factor stops at the greatest 32-bit number, and the product at
the longest span. Both cut off from above what doubles with every attempt, so that a pause never
gets shorter from one attempt to the next, nor more than twice as long.
-/

namespace TxWorkload
namespace Rpc
namespace Retry

/-! ## Factors -/

/-- The factor of the pause behind an attempt, as a number. -/
theorem toNat_factor (attempt : UInt32) :
    (factor attempt).toNat = min (2 ^ attempt.toNat) (2 ^ 32 - 1) := by
  unfold factor
  -- A shift by less than the width loses no bit; from there on the factor stays at its bound.
  split
  · rename_i hsmall
    have hattempt : attempt.toNat < 32 := UInt32.lt_iff_toNat_lt.1 hsmall
    have hpower : 2 ^ attempt.toNat < 2 ^ 32 := Nat.pow_lt_pow_right (by decide) hattempt
    rw [UInt32.toNat_shiftLeft, Nat.mod_eq_of_lt hattempt, UInt32.toNat_one, Nat.one_shiftLeft,
      Nat.mod_eq_of_lt hpower, Nat.min_eq_left (Nat.le_sub_one_of_lt hpower)]
  · rename_i hlarge
    have hattempt : 32 ≤ attempt.toNat :=
      Nat.le_of_not_lt fun hlt => hlarge (UInt32.lt_iff_toNat_lt.2 hlt)
    have hpower : 2 ^ 32 ≤ 2 ^ attempt.toNat := Nat.pow_le_pow_right (by decide) hattempt
    rw [Nat.min_eq_right (Nat.le_trans (Nat.sub_le _ _) hpower)]
    rfl

theorem factor_mono {a b : UInt32} (h : a ≤ b) : (factor a).toNat ≤ (factor b).toNat := by
  have hpower : 2 ^ a.toNat ≤ 2 ^ b.toNat :=
    Nat.pow_le_pow_right (by decide) (UInt32.le_iff_toNat_le.1 h)
  rw [toNat_factor, toNat_factor]
  omega

/-- The factor at most doubles from one attempt to the next. -/
theorem factor_next_le {a b : UInt32} (h : b.toNat = a.toNat + 1) :
    (factor b).toNat ≤ 2 * (factor a).toNat := by
  rw [toNat_factor, toNat_factor, h, Nat.pow_succ]
  have hpos : 0 < 2 ^ a.toNat := Nat.two_pow_pos _
  omega

/-! ## Pauses -/

variable (r : Retry)

theorem toNanos_delayFor (attempt : UInt32) :
    (r.delayFor attempt).toNanos =
      min (r.baseDelay.toNanos * (factor attempt).toNat) Duration.max.toNanos :=
  Duration.toNanos_scale _ _

theorem delayFor_mono {a b : UInt32} (h : a ≤ b) : r.delayFor a ≤ r.delayFor b := by
  change (r.delayFor a).toNanos ≤ (r.delayFor b).toNanos
  have hproduct : r.baseDelay.toNanos * (factor a).toNat ≤
      r.baseDelay.toNanos * (factor b).toNat :=
    Nat.mul_le_mul_left _ (factor_mono h)
  rw [toNanos_delayFor, toNanos_delayFor]
  omega

theorem delayFor_mono_base {r' : Retry} (h : r.baseDelay ≤ r'.baseDelay) (attempt : UInt32) :
    r.delayFor attempt ≤ r'.delayFor attempt := by
  change (r.delayFor attempt).toNanos ≤ (r'.delayFor attempt).toNanos
  have hproduct : r.baseDelay.toNanos * (factor attempt).toNat ≤
      r'.baseDelay.toNanos * (factor attempt).toNat :=
    Nat.mul_le_mul_right _ h
  rw [toNanos_delayFor, toNanos_delayFor]
  omega

theorem delayFor_next_le {a b : UInt32} (h : b.toNat = a.toNat + 1) :
    (r.delayFor b).toNanos ≤ 2 * (r.delayFor a).toNanos := by
  have hproduct : r.baseDelay.toNanos * (factor b).toNat ≤
      2 * (r.baseDelay.toNanos * (factor a).toNat) := by
    calc r.baseDelay.toNanos * (factor b).toNat
        ≤ r.baseDelay.toNanos * (2 * (factor a).toNat) :=
          Nat.mul_le_mul_left _ (factor_next_le h)
      _ = 2 * (r.baseDelay.toNanos * (factor a).toNat) := Nat.mul_left_comm _ _ _
  rw [toNanos_delayFor, toNanos_delayFor]
  omega

/-! ## Schedules -/

theorem length_delays : r.delays.length = max r.maxAttempts.toNat 1 - 1 := by
  rw [delays, List.length_map, List.length_range]
  omega

theorem pairwise_delays : r.delays.Pairwise (· ≤ ·) := by
  rw [delays, List.pairwise_map]
  refine List.Pairwise.imp_of_mem ?_ List.pairwise_lt_range
  intro a b ha hb hlt
  -- Attempts are numbered by words, and there are too few of them for a number to wrap around.
  have hlast : ∀ k ∈ List.range (r.maxAttempts.toNat - 1), k < UInt32.size := by
    intro k hk
    have hmax := r.maxAttempts.toNat_lt_size
    have hk := List.mem_range.1 hk
    omega
  refine r.delayFor_mono (UInt32.le_iff_toNat_le.2 ?_)
  rw [UInt32.toNat_ofNat_of_lt' (hlast a ha), UInt32.toNat_ofNat_of_lt' (hlast b hb)]
  exact Nat.le_of_lt hlt

/-- The pause behind an attempt is the first pause, doubled for each attempt before, up to the
greatest 32-bit factor, and up to the longest span: no step of the multiplication overflows. So the
pauses grow with the attempt and with the first pause, and at most double from one attempt to the
next; and a schedule has one pause less than there are attempts, none longer than the next one. -/
theorem pauses_double (r : Retry) :
    (∀ attempt : UInt32,
      (r.delayFor attempt).toNanos =
        min (r.baseDelay.toNanos * min (2 ^ attempt.toNat) (2 ^ 32 - 1)) (2 ^ 64 * 10 ^ 9 - 1) ∧
      (r.delayFor attempt).nanos.toNat < 10 ^ 9 ∧
      (factor attempt).toNat = min (2 ^ attempt.toNat) (2 ^ 32 - 1) ∧
      r.baseDelay.nanos.toNat * (factor attempt).toNat < 2 ^ 64) ∧
    (∀ a b : UInt32, a ≤ b → r.delayFor a ≤ r.delayFor b) ∧
    (∀ (r' : Retry) (attempt : UInt32), r.baseDelay ≤ r'.baseDelay →
      r.delayFor attempt ≤ r'.delayFor attempt) ∧
    (∀ a b : UInt32, b.toNat = a.toNat + 1 →
      (r.delayFor b).toNanos ≤ 2 * (r.delayFor a).toNanos) ∧
    r.delays.length = max r.maxAttempts.toNat 1 - 1 ∧
    (∀ k < r.delays.length, r.delays[k]? = some (r.delayFor (.ofNat k))) ∧
    r.delays.Pairwise (· ≤ ·) ∧
    ∀ d ∈ r.delays, d ≤ .max := by
  refine ⟨fun attempt => ⟨?_, (r.delayFor attempt).nanos_lt, toNat_factor attempt,
    r.baseDelay.nanos_mul_lt _⟩, fun a b => r.delayFor_mono,
    fun r' attempt h => r.delayFor_mono_base h attempt, fun a b => r.delayFor_next_le,
    r.length_delays, fun k hk => ?_, r.pairwise_delays, fun d _ => d.le_max⟩
  · rw [toNanos_delayFor, toNat_factor, Duration.toNanos_max]
  · have hrange : k < r.maxAttempts.toNat - 1 := by
      rw [delays, List.length_map, List.length_range] at hk
      exact hk
    rw [delays, List.getElem?_map, List.getElem?_range hrange]
    rfl

/-- Both bounds are met at once: the factor stops short of the thirty-second power, and what it
gives is still longer than the longest span. -/
theorem pauses_double_both :
    let r : Retry := { maxAttempts := 40, baseDelay := ⟨4294967297, 999999999, by decide⟩ }
    let r' : Retry := { maxAttempts := 1, baseDelay := .ofSecs 4294967299 }
    (r.delayFor 32).toNanos = 2 ^ 64 * 10 ^ 9 - 1 ∧
      ((31 : UInt32) ≤ 32 ∧ r.delayFor 31 ≤ r.delayFor 32) ∧
      (r.baseDelay ≤ r'.baseDelay ∧ r.delayFor 31 ≤ r'.delayFor 31) ∧
      ((32 : UInt32).toNat = (31 : UInt32).toNat + 1 ∧
        (r.delayFor 32).toNanos ≤ 2 * (r.delayFor 31).toNanos) ∧
      (38 < r.delays.length ∧ r.delays[38]? = some (r.delayFor 38)) ∧
      (r.delayFor 38 ∈ r.delays ∧ r.delayFor 38 ≤ .max) ∧
      r'.delays.length = 0 := by
  intro r r'
  rcases pauses_double r with ⟨hexact, hmono, hbase, hnext, hlength, hdelays, -, hmax⟩
  rcases pauses_double r' with ⟨-, -, -, -, hlength', -⟩
  have hle : (31 : UInt32) ≤ 32 := by decide
  have hless : r.baseDelay ≤ r'.baseDelay := by decide
  have hlast : 38 < r.delays.length := by
    rw [hlength]
    decide
  have hmem : r.delayFor 38 ∈ r.delays := List.mem_of_getElem? (hdelays 38 hlast)
  refine ⟨?_, ⟨hle, hmono 31 32 hle⟩, ⟨hless, hbase r' 31 hless⟩, ⟨rfl, hnext 31 32 rfl⟩,
    ⟨hlast, hdelays 38 hlast⟩, ⟨hmem, hmax _ hmem⟩, hlength'⟩
  rw [(hexact 32).1]
  decide

end Retry
end Rpc
end TxWorkload
