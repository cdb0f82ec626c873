import Mathlib.Algebra.Order.Floor.Div
import Mathlib.Order.Interval.Set.Nat
import TxWorkload.Proofs.Random.Sampling
import TxWorkload.Random.Weighted

/-!
# Share — how many draws count for every pick

A pick stands for the draws whose stretched products lie in a window of the double width. If the
zone is a multiple of the size, every window is as long as every other one and holds the same number
of products. So all picks have the same share of the draws, for 64-bit words and for 32-bit words.
-/

namespace TxWorkload
namespace Random

/-! ## Windows -/

section

variable {width size share : Nat}

/-- The first draw whose product does not lie before the window of a pick. -/
def firstDraw (width size pick : Nat) : Nat :=
  pick * width ⌈/⌉ size

theorem ceilDiv_add_mul (hsize : 0 < size) (start share : Nat) :
    (start + size * share) ⌈/⌉ size = start ⌈/⌉ size + share := by
  have hshift : start + size * share + size - 1 = start + size - 1 + size * share := by omega
  rw [Nat.ceilDiv_eq_add_pred_div, Nat.ceilDiv_eq_add_pred_div, hshift,
    Nat.add_mul_div_left _ _ hsize]

/-- The products in a window are those of as many draws in a row as it has shares. -/
theorem mem_window_iff (hsize : 0 < size) (pick draw : Nat) :
    (pick * width ≤ draw * size ∧ draw * size < pick * width + size * share) ↔
      (firstDraw width size pick ≤ draw ∧ draw < firstDraw width size pick + share) := by
  have hfirst : firstDraw width size pick ≤ draw ↔ pick * width ≤ draw * size := by
    rw [firstDraw, ceilDiv_le_iff_le_mul hsize, Nat.mul_comm size]
  have hlast : firstDraw width size pick + share ≤ draw ↔
      pick * width + size * share ≤ draw * size := by
    rw [firstDraw, ← ceilDiv_add_mul hsize, ceilDiv_le_iff_le_mul hsize, Nat.mul_comm size draw]
  rw [hfirst, ← not_le, ← not_le, hlast]

variable (hshare : 0 < share) (hfits : size * share ≤ width)
include hshare hfits

/-- A draw is accepted for a pick if and only if its product lies in the window of the pick. -/
theorem stretch_eq_some_iff {draw : Nat} (hdraw : draw < width) (pick : Fin size) :
    stretch width (size * share - 1) size draw hdraw = some pick ↔
      pick * width ≤ draw * size ∧ draw * size < pick * width + size * share := by
  have hsize : 0 < size := Nat.zero_lt_of_lt pick.isLt
  have hwidth : 0 < width := Nat.zero_lt_of_lt hdraw
  have hzone : draw * size % width ≤ size * share - 1 ↔ draw * size % width < size * share :=
    Nat.le_sub_one_iff_lt (Nat.mul_pos hsize hshare)
  -- The product is its high half times the width, and its low half behind that.
  have hproduct : draw * size / width * width + draw * size % width = draw * size :=
    Nat.div_add_mod' _ _
  have hsome : stretch width (size * share - 1) size draw hdraw = some pick ↔
      draw * size % width < size * share ∧ draw * size / width = pick := by
    simp [stretch, hzone, hsize, Fin.ext_iff]
  rw [hsome]
  constructor
  · rintro ⟨hlow, hhigh⟩
    rw [hhigh] at hproduct
    omega
  · rintro ⟨hle, hlt⟩
    have hhigh : draw * size / width = pick := by
      apply Nat.div_eq_of_lt_le hle
      rw [Nat.succ_mul]
      omega
    rw [hhigh] at hproduct
    exact ⟨by omega, hhigh⟩

/-! ## Counting -/

/-- Every pick has the same share of the draws. -/
theorem ncard_stretch (pick : Fin size) :
    {draw : Fin width | stretch width (size * share - 1) size draw draw.isLt = some pick}.ncard =
      share := by
  have hsize : 0 < size := Nat.zero_lt_of_lt pick.isLt
  have himage : Set.image Fin.val
      {draw : Fin width | stretch width (size * share - 1) size draw draw.isLt = some pick} =
        Set.Ico (firstDraw width size pick) (firstDraw width size pick + share) := by
    ext draw
    simp only [Set.mem_image, Set.mem_ofPred_eq, stretch_eq_some_iff hshare hfits,
      mem_window_iff hsize, Set.mem_Ico]
    constructor
    · rintro ⟨draw, hwindow, rfl⟩
      exact hwindow
    · intro hwindow
      -- What lies in the window of a pick is the product of a draw below the width.
      have hlt : draw * size < width * size := by
        calc draw * size < pick * width + size * share :=
              ((mem_window_iff hsize pick draw).2 hwindow).2
          _ ≤ pick * width + width := Nat.add_le_add_left hfits _
          _ = (pick + 1) * width := (Nat.succ_mul _ _).symm
          _ ≤ size * width := Nat.mul_le_mul_right _ pick.isLt
          _ = width * size := Nat.mul_comm _ _
      exact ⟨⟨draw, Nat.lt_of_mul_lt_mul_right hlt⟩, hwindow, rfl⟩
  rw [← Set.ncard_image_of_injective _ Fin.val_injective, himage, Set.ncard_Ico_nat,
    Nat.add_sub_cancel_left]

end

/-- The draws that are accepted for one of `count` picks in a row. -/
def row (width size share first count : Nat) : Set (Fin width) :=
  {draw | ∃ pick : Fin size,
    stretch width (size * share - 1) size draw draw.isLt = some pick ∧
      first ≤ pick ∧ pick < first + count}

theorem row_zero (width size share first : Nat) : row width size share first 0 = ∅ := by
  ext draw
  simp only [row, Set.mem_ofPred_eq, Set.mem_empty_iff_false, iff_false]
  rintro ⟨pick, -, hle, hlt⟩
  omega

theorem row_succ {width size share first count : Nat} (hlast : first + count < size) :
    row width size share first (count + 1) = row width size share first count ∪
      {draw | stretch width (size * share - 1) size draw draw.isLt = some ⟨_, hlast⟩} := by
  ext draw
  constructor
  · rintro ⟨pick, hpick, hle, hlt⟩
    by_cases hmost : pick.val = first + count
    · right
      exact hpick.trans (congrArg some (Fin.ext hmost))
    · left
      exact ⟨pick, hpick, hle, by omega⟩
  · rintro (⟨pick, hpick, hle, hlt⟩ | hpick)
    · exact ⟨pick, hpick, hle, by omega⟩
    · exact ⟨_, hpick, Nat.le_add_right _ _, Nat.lt_succ_self _⟩

section

variable {width size share : Nat} (hshare : 0 < share) (hfits : size * share ≤ width)
include hshare hfits

/-- Picks in a row have as many shares as there are of them. -/
theorem ncard_row {first count : Nat} (hrow : first + count ≤ size) :
    (row width size share first count).ncard = count * share := by
  induction count with
  | zero => rw [row_zero, Set.ncard_empty, Nat.zero_mul]
  | succ count ih =>
      have hlast : first + count < size := hrow
      have hdisjoint : Disjoint (row width size share first count)
          {draw | stretch width (size * share - 1) size draw draw.isLt = some ⟨_, hlast⟩} := by
        rw [Set.disjoint_left]
        rintro draw ⟨pick, hpick, -, hlt⟩ hmost
        obtain rfl := Option.some.inj (hpick.symm.trans hmost)
        exact Nat.lt_irrefl _ hlt
      rw [row_succ hlast, Set.ncard_union_eq hdisjoint, ih (Nat.le_of_succ_le hrow),
        ncard_stretch hshare hfits, Nat.succ_mul]

/-- The draws that are not accepted are those left over when all draws are shared out. -/
theorem ncard_stretch_none :
    {draw : Fin width | stretch width (size * share - 1) size draw draw.isLt = none}.ncard =
      width - size * share := by
  have hcompl : {draw : Fin width |
      stretch width (size * share - 1) size draw draw.isLt = none} =
        (row width size share 0 size)ᶜ := by
    ext draw
    simp [row, Option.eq_none_iff_forall_not_mem]
  rw [hcompl, Set.ncard_compl, ncard_row hshare hfits (Nat.le_of_eq (Nat.zero_add size)),
    Nat.card_fin]

end

/-! ## Words -/

theorem ncard_preimage {α β : Type} {f : α → β} (hf : f.Bijective) (s : Set β) :
    (Set.preimage f s).ncard = s.ncard :=
  Set.ncard_preimage_of_injective_subset_range hf.injective (by simp [hf.surjective.range_eq])

theorem bijective_toFin64 : UInt64.toFin.Bijective :=
  ⟨fun _ _ h => UInt64.toFin_inj.1 h, fun draw => ⟨.ofFin draw, rfl⟩⟩

theorem bijective_toFin32 : UInt32.toFin.Bijective :=
  ⟨fun _ _ h => UInt32.toFin_inj.1 h, fun draw => ⟨.ofFin draw, rfl⟩⟩

instance finite_word32 : Finite UInt32 :=
  .of_injective UInt32.toFin bijective_toFin32.injective

theorem card_word32 : Nat.card UInt32 = UInt32.size := by
  rw [Nat.card_eq_of_bijective UInt32.toFin bijective_toFin32, Nat.card_fin]

theorem zone_eq (size : Nat) : zone size = size * 2 ^ (63 - size.log2) - 1 := by
  rw [zone, Nat.shiftLeft_eq]

/-- Every number of a range is picked by the same number of words: two to the number of zeros in
front of the size of the range. -/
theorem ncard_below {size : Nat} (hlt : size < UInt64.size) (i : Fin size) :
    {word | below size word = some i}.ncard = 2 ^ (leadingZeros (.ofNat size)).toNat := by
  have hsize : size ≠ 0 := Nat.ne_zero_of_lt i.isLt
  have hfits : size * 2 ^ (63 - size.log2) ≤ UInt64.size := by
    rw [← Nat.shiftLeft_eq]
    exact Nat.le_of_lt (shifted_lt hsize hlt)
  have hzeros : (leadingZeros (.ofNat size)).toNat = 63 - size.log2 := by
    simp only [leadingZeros, UInt64.toNat_ofNat', Nat.mod_eq_of_lt hlt]
    omega
  have hwords : {word | below size word = some i} = Set.preimage UInt64.toFin
      {draw | stretch UInt64.size (size * 2 ^ (63 - size.log2) - 1) size draw draw.isLt =
        some i} := by
    rw [← zone_eq]
    rfl
  rw [hwords, ncard_preimage bijective_toFin64, ncard_stretch (Nat.two_pow_pos _) hfits, hzeros]

end Random
end TxWorkload
