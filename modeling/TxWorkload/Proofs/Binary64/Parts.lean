import Mathlib.Algebra.Group.Nat.Defs
import TxWorkload.Proofs.Binary64.Order

/-!
# Parts — the parts of a number and its place in the order

A number is taken apart twice: into the fields of its word, from which its exact value is computed,
and into the unpacked form by which numbers are compared. Both give the same sign, significand and
exponent. So a finite number that is not below one has a value of at least one.
-/

namespace TxWorkload
namespace Binary64

open Float.Model (UnpackedFloat Format)
open Float.Model.UnpackedFloat

/-! ## Fields -/

theorem toNat_mantissa (b : BitVec 64) :
    (@unpackMantissa Format.binary64 b).toNat = b.toNat % 2 ^ 52 := by
  simp [unpackMantissa]

theorem toNat_exponent (b : BitVec 64) :
    (@unpackExponent Format.binary64 b).toNat = b.toNat >>> 52 % 2 ^ 11 := by
  simp [unpackExponent]

theorem isNegative_sign (b : BitVec 64) :
    (Sign.ofBitVec (@unpackSign Format.binary64 b) == .negative) =
      decide (2 ^ 63 ≤ b.toNat) := by
  have hsign : (@unpackSign Format.binary64 b).toNat = b.toNat / 2 ^ 63 % 2 := by
    change (b.extractLsb 63 63).toNat = _
    simp [Nat.shiftRight_eq_div_pow]
  have hlt := b.isLt
  unfold Sign.ofBitVec
  -- The sign is a single bit: it is zero, or else it is one.
  split
  · rename_i hzero
    rw [hzero] at hsign
    have hsmall : ¬ 2 ^ 63 ≤ b.toNat := by
      simp at hsign
      omega
    rw [decide_eq_false hsmall]
    rfl
  · rename_i hone
    have hlarge : 2 ^ 63 ≤ b.toNat := by
      refine Decidable.byContradiction fun hsmall => hone (BitVec.eq_of_toNat_eq ?_)
      rw [hsign]
      simp
      omega
    rw [decide_eq_true hlarge]
    rfl

/-- The implicit leading bit of a significand stands above the others. -/
theorem toNat_leading (m : BitVec 52) : (1#1 ++ m).toNat = 2 ^ 52 + m.toNat := by
  rw [BitVec.toNat_append, ← Nat.shiftLeft_add_eq_or_of_lt m.isLt]
  rfl

/-! ## The unpacked form -/

/-- The parts of an unpacked number. -/
def partsOf : UnpackedFloat → Parts
  | .notANumber => .nan
  | .infinity s => .infinite (s == .negative)
  | .zero s => .finite (s == .negative) 0 (-1074)
  | .finite s m e _ => .finite (s == .negative) m e

theorem parts_eq_partsOf (x : Float) : parts x = partsOf x.toModel.unpack := by
  have hm := toNat_mantissa x.toModel.toBits.toBitVec
  have he := toNat_exponent x.toModel.toBits.toBitVec
  have hs := isNegative_sign x.toModel.toBits.toBitVec
  have hbits : x.toModel.toBits.toNat = x.toModel.toBits.toBitVec.toNat := rfl
  unfold Float.Model.unpack unpack parts Float.toBits
  dsimp only
  rw [hbits, show 1 <<< 63 = 2 ^ 63 from rfl, show 1 <<< 11 = 2 ^ 11 from rfl,
    show 1 <<< 52 = 2 ^ 52 from rfl]
  generalize x.toModel.toBits.toBitVec = b at *
  rw [← he, ← hm, ← hs]
  have hmost : @unpackExponent Format.binary64 b = -1#_ ↔
      (@unpackExponent Format.binary64 b).toNat = 2047 := by
    rw [← BitVec.toNat_inj]
    rfl
  have hleast : @unpackExponent Format.binary64 b = 0#_ ↔
      (@unpackExponent Format.binary64 b).toNat = 0 := by
    rw [← BitVec.toNat_inj]
    rfl
  have hnone : @unpackMantissa Format.binary64 b = 0#_ ↔
      (@unpackMantissa Format.binary64 b).toNat = 0 := by
    rw [← BitVec.toNat_inj]
    rfl
  -- Both forms read the same two fields now, and test them in the same order.
  by_cases hexponent : (@unpackExponent Format.binary64 b).toNat = 2047
  · rw [if_pos hexponent, if_pos (hmost.2 hexponent)]
    by_cases hzero : (@unpackMantissa Format.binary64 b).toNat = 0
    · rw [if_pos hzero, if_pos (hnone.2 hzero)]
      rfl
    · rw [if_neg hzero, if_neg (mt hnone.1 hzero)]
      rfl
  · rw [if_neg hexponent, if_neg (mt hmost.1 hexponent)]
    by_cases hsubnormal : (@unpackExponent Format.binary64 b).toNat = 0
    · rw [if_pos hsubnormal, if_pos (hleast.2 hsubnormal)]
      by_cases hzero : (@unpackMantissa Format.binary64 b).toNat = 0
      · rw [dif_pos (hnone.2 hzero), hzero]
        rfl
      · rw [dif_neg (mt hnone.1 hzero), hsubnormal]
        rfl
    · rw [if_neg hsubnormal, if_neg (mt hleast.1 hsubnormal)]
      -- Only a normal number has a leading bit, which one form adds and the other prepends.
      exact congrArg (Parts.finite _ · _) (toNat_leading _).symm

/-! ## Numbers that are not below one -/

theorem unpack_one :
    (1.0 : Float).toModel.unpack = .finite .positive (2 ^ 52) (-52) (by decide) :=
  rfl

/-- The least exponent goes with any significand, every other one with a leading bit. -/
theorem normal_of_parts {x : Float} {negative : Bool} {m : Nat} {q : Int}
    (h : parts x = .finite negative m q) : q = -1074 ∨ 2 ^ 52 ≤ m := by
  unfold parts at h
  dsimp only at h
  split at h
  · split at h <;> cases h
  · split at h
    · cases h
      exact .inl rfl
    · cases h
      exact .inr (Nat.le_add_right _ _)

/-- A finite number that is not below one is positive, and its exponent outweighs that of one. -/
theorem parts_of_not_lt_one {x : Float} (h : ¬ x < 1.0) {negative : Bool} {m : Nat} {q : Int}
    (hx : parts x = .finite negative m q) : negative = false ∧ 2 ^ 52 ≤ m ∧ -52 ≤ q := by
  have hnormal := normal_of_parts hx
  rw [lt_iff_order, order, unpack_one] at h
  rw [parts_eq_partsOf] at hx
  revert h hx
  rcases x.toModel.unpack with s | _ | s | ⟨s, m', e, hm⟩
  · intro h hx
    cases hx
  · intro h hx
    cases hx
  · intro h hx
    cases s with
    | negative => exact absurd rfl h
    | positive => exact absurd rfl h
  · intro h hx
    cases hx
    cases s with
    | negative => exact absurd rfl h
    | positive =>
        -- Exponents decide first, so a smaller one would place the number below one.
        have hexponent : -52 ≤ q := by
          refine Int.not_lt.1 fun hlt => h (congrArg some ?_)
          rw [Int.compare_eq_lt.2 hlt]
          rfl
        rcases hnormal with rfl | hm
        · exact absurd hexponent (by decide)
        · exact ⟨rfl, hm, hexponent⟩

/-! ## Quotients -/

theorem le_ratio {m : Nat} {q : Int} (hm : 2 ^ 52 ≤ m) (hq : -52 ≤ q) :
    0 < (ratio m q).2 ∧ (ratio m q).2 ≤ (ratio m q).1 := by
  unfold ratio
  split
  · refine ⟨Nat.one_pos, ?_⟩
    rw [Nat.shiftLeft_eq]
    exact Nat.mul_pos (Nat.lt_of_lt_of_le (Nat.two_pow_pos 52) hm) (Nat.two_pow_pos _)
  · rw [Nat.shiftLeft_eq, Nat.one_mul]
    refine ⟨Nat.two_pow_pos _, ?_⟩
    calc 2 ^ (-q).toNat ≤ 2 ^ 52 := Nat.pow_le_pow_right (by decide) (by omega)
      _ ≤ m := hm

theorem le_roundDiv {a num den : Nat} (hden : 0 < den) (h : a * den ≤ num) :
    a ≤ roundDiv num den := by
  have hquotient : a ≤ num / den := (Nat.le_div_iff_mul_le hden).2 h
  unfold roundDiv
  dsimp only
  split
  · exact hquotient
  · split
    · exact Nat.le_succ_of_le hquotient
    · split
      · exact hquotient
      · exact Nat.le_succ_of_le hquotient

end Binary64
end TxWorkload
