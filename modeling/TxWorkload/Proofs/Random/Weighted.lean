import TxWorkload.Proofs.Random.Share

/-!
# Weighted — every weight has its share of the draws

A weight is picked by the points of the line between the sum of the weights before it and the sum
that includes it. All points have the same share of the 32-bit draws, so a weight is picked by as
many shares as it counts, and the draws that are not accepted are the remainder of a division by the
sum of all weights.
-/

namespace TxWorkload
namespace Random

/-! ## Points -/

@[simp] theorem total_nil : total [] = 0 := rfl

@[simp] theorem total_cons (w : Nat) (weights : List Nat) :
    total (w :: weights) = w + total weights := rfl

/-- The sums of the first weights, up to all but the last. -/
def partialSums (weights : List Nat) : List Nat :=
  (List.range (weights.length - 1)).map fun j => total (weights.take (j + 1))

theorem partialSums_cons (w v : Nat) (rest : List Nat) :
    partialSums (w :: v :: rest) = w :: (partialSums (v :: rest)).map (w + ·) := by
  simp [partialSums, List.range_succ_eq_map, Function.comp_def]

/-- A point falls on the position that is the number of partial sums not above it. -/
theorem fallsOn_eq_countP (weights : List Nat) (x : Nat) :
    fallsOn weights x = (partialSums weights).countP fun sum => sum ≤ x := by
  induction weights generalizing x with
  | nil => rfl
  | cons w rest ih =>
      cases rest with
      | nil => rfl
      | cons v rest =>
          rw [fallsOn, partialSums_cons, List.countP_cons, List.countP_map]
          by_cases hx : x < w
          · -- No partial sum is below the first weight, which is one of them.
            have hnone : (partialSums (v :: rest)).countP
                ((fun sum => decide (sum ≤ x)) ∘ (w + ·)) = 0 := by
              apply List.countP_eq_zero.2
              intro sum _
              simp only [Function.comp_apply, decide_eq_true_eq]
              omega
            simp [hx, hnone]
          · have hshift : ((fun sum => decide (sum ≤ x)) ∘ (w + ·)) =
                fun sum => decide (sum ≤ x - w) := by
              funext sum
              simp only [Function.comp_apply, decide_eq_decide]
              omega
            rw [if_neg hx, hshift, ih]
            simp [Nat.le_of_not_lt hx]

/-- A point falls on a weight if it lies behind the weights before it, but not behind this one. -/
theorem fallsOn_eq_iff {weights : List Nat} {i : Nat} (hi : i < weights.length) {x : Nat}
    (hx : x < total weights) :
    fallsOn weights x = i ↔
      total (weights.take i) ≤ x ∧ x < total (weights.take i) + weights[i] := by
  induction weights generalizing i x with
  | nil => cases hi
  | cons w rest ih =>
      cases rest with
      | nil =>
          have hzero : i = 0 := Nat.lt_one_iff.1 hi
          subst hzero
          have hw : x < w := hx
          simp [fallsOn, hw]
      | cons v rest =>
          rw [total_cons] at hx
          rw [fallsOn]
          by_cases hw : x < w
          · cases i with
            | zero => simp [hw]
            | succ i =>
                simp only [hw, if_true, List.take_succ_cons, total_cons]
                omega
          · cases i with
            | zero => simp [hw]
            | succ i =>
                have hrest := ih (Nat.lt_of_succ_lt_succ hi) (x := x - w) (by omega)
                simp only [hw, if_false, Nat.add_right_cancel_iff, hrest, List.take_succ_cons,
                  total_cons, List.getElem_cons_succ]
                omega

/-- A weight ends before the sum of all weights, or with it. -/
theorem total_take_add_le {weights : List Nat} {i : Nat} (hi : i < weights.length) :
    total (weights.take i) + weights[i] ≤ total weights := by
  induction weights generalizing i with
  | nil => cases hi
  | cons w rest ih =>
      cases i with
      | zero => simp
      | succ i =>
          have hrest := ih (Nat.lt_of_succ_lt_succ hi)
          simp only [List.take_succ_cons, total_cons, List.getElem_cons_succ]
          omega

/-! ## Draws -/

/-- The position of the weight that a 32-bit draw picks, if the draw is accepted. -/
def weigh (weights : List Nat) (h : weights ≠ []) (draw : UInt32) : Option (Fin weights.length) :=
  (stretch UInt32.size (zone32 (total weights)) (total weights) draw.toNat draw.toNat_lt_size).map
    fun ⟨x, _⟩ => ⟨fallsOn weights x, fallsOn_lt h x⟩

variable {weights : List Nat} (h : weights ≠ [])

/-- A position is drawn from the low halves of words, the first that is accepted. -/
theorem weighted_eq_first :
    weighted weights h = Draw.first fun word => weigh weights h word.toUInt32 :=
  first_map _ fun x : Fin (total weights) => (⟨fallsOn weights x, fallsOn_lt h x⟩ : Fin _)

/-- What a draw picks, by its product with the sum of all weights: the low half decides whether it
is accepted, and the high half is the point. -/
theorem weigh_eq (hpos : 0 < total weights) (draw : UInt32) :
    (weigh weights h draw).map Fin.val =
      if draw.toNat * total weights % UInt32.size ≤
          UInt32.size - 1 - UInt32.size % total weights then
        some ((partialSums weights).countP fun sum =>
          sum ≤ draw.toNat * total weights / UInt32.size)
      else none := by
  unfold weigh stretch zone32
  split
  · simp [fallsOn_eq_countP]
  · rfl

theorem zone32_eq (total : Nat) : zone32 total = total * (UInt32.size / total) - 1 := by
  have hdivide := Nat.div_add_mod UInt32.size total
  rw [zone32]
  omega

section

variable (hpos : 0 < total weights) (hlt : total weights < UInt32.size)
include hpos hlt

/-- A weight is picked by as many shares of the draws as it counts. -/
theorem ncard_weigh (i : Fin weights.length) :
    {draw | weigh weights h draw = some i}.ncard =
      UInt32.size / total weights * weights[i.val] := by
  have hshare : 0 < UInt32.size / total weights := Nat.div_pos (Nat.le_of_lt hlt) hpos
  have hfits : total weights * (UInt32.size / total weights) ≤ UInt32.size := Nat.mul_div_le _ _
  have hdraws : {draw | weigh weights h draw = some i} = Set.preimage UInt32.toFin
      (row UInt32.size (total weights) (UInt32.size / total weights)
        (total (weights.take i)) weights[i.val]) := by
    ext draw
    simp only [Set.mem_ofPred_eq, Set.mem_preimage, weigh, zone32_eq, row,
      Option.map_eq_some_iff, Fin.ext_iff]
    apply exists_congr
    intro x
    rw [fallsOn_eq_iff i.isLt x.isLt]
    rfl
  rw [hdraws, ncard_preimage bijective_toFin32, ncard_row hshare hfits (total_take_add_le i.isLt),
    Nat.mul_comm]

/-- The draws that are not accepted are the remainder of their number. -/
theorem ncard_weigh_none :
    {draw | weigh weights h draw = none}.ncard = UInt32.size % total weights := by
  have hshare : 0 < UInt32.size / total weights := Nat.div_pos (Nat.le_of_lt hlt) hpos
  have hfits : total weights * (UInt32.size / total weights) ≤ UInt32.size := Nat.mul_div_le _ _
  have hdraws : {draw | weigh weights h draw = none} = Set.preimage UInt32.toFin
      {draw | stretch UInt32.size (total weights * (UInt32.size / total weights) - 1)
        (total weights) draw draw.isLt = none} := by
    ext draw
    simp only [Set.mem_ofPred_eq, Set.mem_preimage, weigh, zone32_eq, Option.map_eq_none_iff]
    rfl
  rw [hdraws, ncard_preimage bijective_toFin32, ncard_stretch_none hshare hfits,
    ← Nat.mod_eq_sub]

end

end Random
end TxWorkload
