import TxWorkload.Random.Range

/-!
# Sampling — ranges in the arithmetic of machine words

A number from a range is drawn in 64-bit arithmetic, which wraps around: the size of the range, its
zone, both halves of a wide product, and the pick itself. Only the size of the range of all words
wraps, and that range is told apart. So the draw gives what exact arithmetic gives.
-/

namespace TxWorkload
namespace Random

/-! ## Machine words -/

/-- The number of zeros in front of the highest bit of a word that is not zero. -/
def leadingZeros (word : UInt64) : UInt64 :=
  .ofNat (63 - word.toNat.log2)

/-- The high and the low half of the product of two words, which is twice as wide. -/
def wideProduct (a b : UInt64) : UInt64 × UInt64 :=
  (.ofNat (a.toNat * b.toNat / UInt64.size), .ofNat (a.toNat * b.toNat))

/-- What a word picks from `least` to `most`, if it is accepted, in wrapping arithmetic. Every word
is accepted as it is if the size of the range wraps around to zero. -/
def sampled (least most word : UInt64) : Option UInt64 :=
  let range := most - least + 1
  if range = 0 then some word
  else
    let zone := (range <<< leadingZeros range) - 1
    let product := wideProduct word range
    if product.2 ≤ zone then some (least + product.1) else none

/-! ## Nothing else wraps -/

/-- A number shifted to the top of a word fits the word. -/
theorem shifted_lt {size : Nat} (hpos : size ≠ 0) (hlt : size < UInt64.size) :
    size <<< (63 - size.log2) < UInt64.size := by
  have hlog : size.log2 < 64 := (Nat.log2_lt hpos).2 hlt
  have hself : size < 2 ^ (size.log2 + 1) := Nat.lt_log2_self
  calc size <<< (63 - size.log2) = size * 2 ^ (63 - size.log2) := Nat.shiftLeft_eq _ _
    _ < 2 ^ (size.log2 + 1) * 2 ^ (63 - size.log2) :=
        Nat.mul_lt_mul_of_pos_right hself (Nat.two_pow_pos _)
    _ = 2 ^ (size.log2 + 1 + (63 - size.log2)) := (Nat.pow_add _ _ _).symm
    _ = 2 ^ 64 := by
        have hsum : size.log2 + 1 + (63 - size.log2) = 64 := by omega
        rw [hsum]
    _ = UInt64.size := rfl

/-- The zone of a range is the same in machine words. -/
theorem toNat_zone {range : UInt64} (h : range ≠ 0) :
    ((range <<< leadingZeros range) - 1).toNat = zone range.toNat := by
  have hpos : range.toNat ≠ 0 := by
    intro hzero
    exact h (UInt64.toNat_inj.1 hzero)
  have hfits := shifted_lt hpos range.toNat_lt_size
  have hlog : range.toNat.log2 < 64 := (Nat.log2_lt hpos).2 range.toNat_lt_size
  have hzeros : (leadingZeros range).toNat % 64 = 63 - range.toNat.log2 := by
    simp only [leadingZeros, UInt64.toNat_ofNat']
    omega
  have hshifted : (range <<< leadingZeros range).toNat =
      range.toNat <<< (63 - range.toNat.log2) := by
    rw [UInt64.toNat_shiftLeft, hzeros]
    exact Nat.mod_eq_of_lt hfits
  have hone : (1 : UInt64) ≤ range <<< leadingZeros range := by
    rw [UInt64.le_iff_toNat_le, hshifted, Nat.shiftLeft_eq]
    exact Nat.mul_pos (Nat.pos_of_ne_zero hpos) (Nat.two_pow_pos _)
  rw [UInt64.toNat_sub_of_le _ _ hone, hshifted]
  rfl

variable {least most : UInt64}

/-- The size of a range, which wraps around to zero for the range of all words only. -/
theorem toNat_range (h : least ≤ most) :
    (most - least + 1).toNat = (most.toNat - least.toNat + 1) % UInt64.size := by
  rw [UInt64.toNat_add, UInt64.toNat_sub_of_le _ _ h]
  rfl

/-- What a word picks in machine words is what it picks in exact arithmetic. -/
theorem sampled_eq (h : least ≤ most) (word : UInt64) :
    sampled least most word = (below (most.toNat - least.toNat + 1) word).map
      fun i : Fin _ => least + UInt64.ofNat i.val := by
  have hle := UInt64.le_iff_toNat_le.1 h
  have hmost := most.toNat_lt_size
  have hrange := toNat_range h
  have hleast : most.toNat - least.toNat + 1 = UInt64.size → least = 0 := by
    intro hall
    apply UInt64.toNat_inj.1
    change least.toNat = 0
    omega
  have hfits : most.toNat - least.toNat + 1 ≤ UInt64.size := by omega
  have hpos : 0 < most.toNat - least.toNat + 1 := Nat.succ_pos _
  generalize most.toNat - least.toNat + 1 = size at *
  by_cases hall : size = UInt64.size
  · -- The range of all words starts at zero, and a product with its size is the word and zeros.
    subst hall
    have hzero : most - least + 1 = 0 := by
      apply UInt64.toNat_inj.1
      rw [hrange]
      rfl
    have hlow : word.toNat * UInt64.size % UInt64.size = 0 := Nat.mul_mod_left _ _
    have hhigh : word.toNat * UInt64.size / UInt64.size = word.toNat :=
      Nat.mul_div_cancel _ (by decide)
    have hsampled : sampled least most word = some word := by
      simp only [sampled, hzero, if_true]
    rw [hsampled]
    simp only [below, stretch, hlow, hhigh, Nat.zero_le, if_true, hpos, dif_pos, Option.map_some,
      hleast, UInt64.zero_add, UInt64.ofNat_toNat]
  · have hsize : (most - least + 1).toNat = size := by
      rw [hrange]
      apply Nat.mod_eq_of_lt
      omega
    have hne : most - least + 1 ≠ 0 := by
      intro hzero
      rw [hzero] at hsize
      have hnone : size = 0 := hsize.symm
      omega
    simp only [sampled, if_neg hne, wideProduct, below, stretch, UInt64.le_iff_toNat_le,
      toNat_zone hne, UInt64.toNat_ofNat', hsize, hpos, dif_pos]
    split <;> rfl

/-- What is done with an accepted word may be done while it is accepted. -/
theorem first_map {β γ : Type} (accept : UInt64 → Option β) (f : β → γ) :
    (do return f (← Draw.first accept)) = Draw.first fun word => (accept word).map f := by
  funext supply
  induction supply with
  | nil => rfl
  | cons word rest ih =>
      cases hword : accept word with
      | some b => simp [Bind.bind, Draw.andThen, Draw.first, hword, pure, Draw.done]
      | none => simpa [Bind.bind, Draw.andThen, Draw.first, hword] using ih

/-- A number from a range is drawn in machine words. -/
theorem pick_eq_first (h : least ≤ most) : pick least most = Draw.first (sampled least most) := by
  have hsampled : sampled least most = fun word =>
      (below (most.toNat - least.toNat + 1) word).map
        fun i : Fin _ => least + UInt64.ofNat i.val := by
    funext word
    exact sampled_eq h word
  rw [hsampled, pick, if_pos h, index, if_neg (Nat.succ_ne_zero _)]
  exact first_map _ _

/-- The sum that makes the pick does not wrap around, and stays in the range. -/
theorem toNat_of_sampled (h : least ≤ most) {word value : UInt64}
    (hvalue : sampled least most word = some value) :
    value.toNat = least.toNat +
        word.toNat * (most.toNat - least.toNat + 1) / UInt64.size ∧
      value.toNat ≤ most.toNat := by
  rw [sampled_eq h, Option.map_eq_some_iff] at hvalue
  rcases hvalue with ⟨i, hi, rfl⟩
  have hhigh : i.val = word.toNat * (most.toNat - least.toNat + 1) / UInt64.size := by
    unfold below stretch at hi
    split at hi
    · split at hi
      · cases hi
        rfl
      · cases hi
    · cases hi
  have hle := UInt64.le_iff_toNat_le.1 h
  have hmost := most.toNat_lt
  have hlt := i.isLt
  have hsum : (least + UInt64.ofNat i).toNat = least.toNat + i.val := by
    rw [UInt64.toNat_add, UInt64.toNat_ofNat']
    omega
  refine ⟨by rw [hsum, hhigh], ?_⟩
  rw [hsum]
  omega

end Random
end TxWorkload
