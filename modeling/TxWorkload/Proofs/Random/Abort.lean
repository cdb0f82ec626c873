import TxWorkload.Proofs.Random.Steady

/-!
# Abort — when a draw gives up

A draw from a range gives up if and only if the range is empty, and an event if and only if its
probability is no number from zero to one. Whether there are enough words has no part in it.
-/

namespace TxWorkload
namespace Random

variable {α : Type} {supply : Supply} {cause : Abort}

/-- A draw that is steady if something is fit, and gives up at once if it is not. -/
theorem eq_abort_iff {d : Draw α} {reason : Abort} {P : Prop} (hfit : P → d.Steady)
    (hunfit : ¬ P → d = Draw.abort reason) :
    d supply = .abort cause ↔ ¬ P ∧ cause = reason := by
  by_cases h : P
  · constructor
    · intro habort
      exact absurd habort ((hfit h).ne_abort supply cause)
    · rintro ⟨hnot, -⟩
      exact absurd h hnot
  · rw [hunfit h]
    constructor
    · rintro ⟨⟩
      exact ⟨h, rfl⟩
    · rintro ⟨-, rfl⟩
      rfl

theorem index_eq_abort {size : Nat} :
    index size supply = .abort cause ↔ size = 0 ∧ cause = .emptyRange := by
  rw [eq_abort_iff (P := size ≠ 0) steady_index fun h => if_pos (Decidable.not_not.1 h),
    Decidable.not_not]

theorem pick_eq_abort {least most : UInt64} :
    pick least most supply = .abort cause ↔ most < least ∧ cause = .emptyRange := by
  rw [eq_abort_iff (P := least ≤ most) steady_pick fun h => if_neg h, UInt64.not_le]

theorem chance_eq_abort {p : Float} :
    chance p supply = .abort cause ↔ ¬ (0.0 ≤ p ∧ p ≤ 1.0) ∧ cause = .badProbability := by
  refine eq_abort_iff (fun h => steady_chance h.1 h.2) fun h => ?_
  have hne : ¬ (p == 1.0) = true := fun hone =>
    h ⟨Binary64.zero_le_of_beq_one hone, Binary64.le_of_beq hone⟩
  have hout : ¬ (0.0 ≤ p && p < 1.0) = true := by
    intro hin
    rcases Bool.and_eq_true_iff.1 hin with ⟨hzero, hlt⟩
    exact h ⟨of_decide_eq_true hzero, Binary64.le_of_lt (of_decide_eq_true hlt)⟩
  rw [chance, if_neg hne, if_neg hout]

end Random
end TxWorkload
