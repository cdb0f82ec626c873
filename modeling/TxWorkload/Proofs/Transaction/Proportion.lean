import Mathlib.Algebra.Order.Field.Rat
import Mathlib.Tactic.FieldSimp
import TxWorkload.Proofs.Transaction.Acceptance

/-!
# Proportion — patterns come as often as their weights say

A generator chooses a pattern from the low half of a word. Counted over all 32-bit draws, a pattern
is chosen by as many shares as its weight, where all draws are shared out equally among the units of
weight. The draws left over are rejected, so that among the accepted ones the chance of a pattern is
its weight over the sum of all weights, exactly.
-/

namespace TxWorkload
namespace Transaction
namespace Generator

open Pattern (weights)
open TxWorkload.Random (Draw total partialSums weigh)

variable (g : Generator)

theorem length_weights : (weights g.patterns).length = g.patterns.length :=
  List.length_map _

/-- The position of the pattern that a 32-bit draw chooses, if the draw is accepted. -/
def chosen (draw : UInt32) : Option (Fin g.patterns.length) :=
  (weigh (weights g.patterns) g.weights_ne_nil draw).map (Fin.cast g.length_weights)

/-- Words are drawn until the low half of one of them is accepted. -/
theorem choose_eq_first : g.choose = Draw.first fun word => g.chosen word.toUInt32 := by
  rw [choose, Random.weighted_eq_first]
  exact Random.first_map _ _

/-- What is chosen, by the product of the draw with the sum of all weights: the low half decides
whether the draw is accepted, and the position is the number of partial sums that are not above the
high half. -/
theorem chosen_eq (draw : UInt32) :
    (g.chosen draw).map Fin.val =
      if draw.toNat * total (weights g.patterns) % UInt32.size ≤
          UInt32.size - 1 - UInt32.size % total (weights g.patterns) then
        some ((partialSums (weights g.patterns)).countP fun sum =>
          sum ≤ draw.toNat * total (weights g.patterns) / UInt32.size)
      else none := by
  rw [← Random.weigh_eq g.weights_ne_nil (Pattern.total_pos g.valid), chosen, Option.map_map]
  rfl

/-! ## Counting -/

theorem ncard_chosen (i : Fin g.patterns.length) :
    {draw | g.chosen draw = some i}.ncard =
      UInt32.size / total (weights g.patterns) * (g.patterns.get i).weight.toNat := by
  have hdraws : {draw | g.chosen draw = some i} =
      {draw | weigh (weights g.patterns) g.weights_ne_nil draw =
        some (i.cast g.length_weights.symm)} := by
    ext draw
    rw [Set.mem_ofPred_eq, Set.mem_ofPred_eq, chosen]
    generalize weigh (weights g.patterns) g.weights_ne_nil draw = position
    cases position <;> simp [Fin.ext_iff]
  rw [hdraws, Random.ncard_weigh _ (Pattern.total_pos g.valid) g.bounded]
  simp only [weights, List.getElem_map]
  rfl

theorem ncard_rejected :
    {draw | g.chosen draw = none}.ncard = UInt32.size % total (weights g.patterns) := by
  simp only [chosen, Option.map_eq_none_iff]
  exact Random.ncard_weigh_none _ (Pattern.total_pos g.valid) g.bounded

/-- The accepted draws are shared out among the units of weight without a remainder. -/
theorem ncard_accepted :
    {draw | g.chosen draw ≠ none}.ncard =
      UInt32.size / total (weights g.patterns) * total (weights g.patterns) := by
  have hall : {draw | g.chosen draw = none}.ncard + {draw | g.chosen draw ≠ none}.ncard =
      UInt32.size := by
    rw [← Random.card_word32]
    exact Set.ncard_add_ncard_compl _
  have hdivide := Nat.div_add_mod' UInt32.size (total (weights g.patterns))
  rw [ncard_rejected] at hall
  omega

/-- The chance of a pattern among the accepted draws is its share of the weights. -/
theorem chance_chosen (i : Fin g.patterns.length) :
    ({draw | g.chosen draw = some i}.ncard : ℚ) / {draw | g.chosen draw ≠ none}.ncard =
      (g.patterns.get i).weight.toNat / total (weights g.patterns) := by
  have hshare : 0 < UInt32.size / total (weights g.patterns) :=
    Nat.div_pos (Nat.le_of_lt g.bounded) (Pattern.total_pos g.valid)
  have hne : ((UInt32.size / total (weights g.patterns) : ℕ) : ℚ) ≠ 0 :=
    Nat.cast_ne_zero.2 (Nat.ne_of_gt hshare)
  rw [ncard_chosen, ncard_accepted, Nat.cast_mul, Nat.cast_mul]
  exact mul_div_mul_left _ _ hne

/-- A sound table whose weights add up to a 32-bit number is chosen from in proportion to its
weights. Every draw chooses by its product with the sum of the weights, and a draw that is rejected
is followed by another one. Of all draws, a pattern is chosen by its weight times the quotient of
their number by the sum, and as many as the remainder are rejected. -/
theorem choose_in_proportion (pool : Account.Pool) (patterns : List Pattern)
    (hsound : Pattern.Sound patterns) (hfits : total (weights patterns) < UInt32.size) :
    ∃ g, make pool patterns = .ok g ∧ g.patterns = patterns ∧
      g.choose = Draw.first (fun word => g.chosen word.toUInt32) ∧
      (∀ draw, (g.chosen draw).map Fin.val =
        if draw.toNat * total (weights patterns) % UInt32.size ≤
            UInt32.size - 1 - UInt32.size % total (weights patterns) then
          some ((partialSums (weights patterns)).countP fun sum =>
            sum ≤ draw.toNat * total (weights patterns) / UInt32.size)
        else none) ∧
      (∀ i, {draw | g.chosen draw = some i}.ncard =
        UInt32.size / total (weights patterns) * (g.patterns.get i).weight.toNat) ∧
      {draw | g.chosen draw = none}.ncard = UInt32.size % total (weights patterns) ∧
      ∀ i, ({draw | g.chosen draw = some i}.ncard : ℚ) / {draw | g.chosen draw ≠ none}.ncard =
        (g.patterns.get i).weight.toNat / total (weights patterns) := by
  rcases exists_make pool hsound hfits with ⟨g, hmake, -, rfl⟩
  exact ⟨g, hmake, rfl, g.choose_eq_first, g.chosen_eq, g.ncard_chosen, g.ncard_rejected,
    g.chance_chosen⟩

/-- Two patterns of one kind, with weights whose sum does not divide the number of draws. One draw
is rejected, and of the others one third is for the first pattern. -/
theorem choose_in_proportion_thirds :
    let patterns : List Pattern := [⟨.transfer, 1, 7, 7⟩, ⟨.transfer, 2, 0, 9⟩]
    ∃ g, make .development patterns = .ok g ∧ g.patterns = patterns ∧
      {draw | g.chosen draw = none}.ncard = 1 ∧
      ∀ i, ({draw | g.chosen draw = some i}.ncard : ℚ) / {draw | g.chosen draw ≠ none}.ncard =
        (g.patterns.get i).weight.toNat / 3 := by
  intro patterns
  have hsound : Pattern.Sound patterns := Pattern.validate_eq_ok_iff.1 rfl
  rcases choose_in_proportion .development patterns hsound (by decide) with
    ⟨g, hmake, hpatterns, -, -, -, hnone, hchance⟩
  have htotal : total (weights patterns) = 3 := rfl
  rw [htotal] at hnone
  refine ⟨g, hmake, hpatterns, hnone, ?_⟩
  intro i
  rw [hchance i, htotal]
  rfl

end Generator
end Transaction
end TxWorkload
