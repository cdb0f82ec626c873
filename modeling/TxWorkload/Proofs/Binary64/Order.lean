import TxWorkload.Binary64.Parts

/-!
# Order — comparing floating-point numbers

The three comparisons of numbers are views of one: `order` tells how two numbers lie, and nothing
if one of them is no number. What is not below one has a value of at least one, unless it is too
large to have one, or no number.
-/

namespace TxWorkload
namespace Binary64

open Float.Model (UnpackedFloat)
open Float.Model.UnpackedFloat

/-! ## Comparisons -/

/-- How two numbers lie, if both are numbers. -/
def order (x y : Float) : Option Ordering :=
  UnpackedFloat.compare x.toModel.unpack y.toModel.unpack

theorem lt_iff_order {x y : Float} : x < y ↔ order x y = some .lt := by
  change decide (x.toModel < y.toModel) = true ↔ _
  rw [decide_eq_true_iff]
  change (UnpackedFloat.compare x.toModel.unpack y.toModel.unpack == some .lt) = true ↔ _
  exact beq_iff_eq

theorem le_iff_order {x y : Float} : x ≤ y ↔ order x y = some .lt ∨ order x y = some .eq := by
  change decide (x.toModel ≤ y.toModel) = true ↔ _
  rw [decide_eq_true_iff]
  change (order x y).any (·.isLE) = true ↔ _
  rcases order x y with _ | _ | _ | _ <;> decide

theorem beq_iff_order {x y : Float} : (x == y) = true ↔ order x y = some .eq := by
  change (UnpackedFloat.compare x.toModel.unpack y.toModel.unpack == some .eq) = true ↔ _
  exact beq_iff_eq

/-- Exponents are compared first, and significands if these are equal. -/
theorem compare_then_swap (e e' : Int) (m m' : Nat) :
    (Ord.compare e' e).then (Ord.compare m' m) =
      ((Ord.compare e e').then (Ord.compare m m')).swap := by
  rw [Ordering.swap_then, ← Std.OrientedOrd.eq_swap, ← Std.OrientedOrd.eq_swap]

theorem compare_swap (x y : UnpackedFloat) :
    UnpackedFloat.compare y x = (UnpackedFloat.compare x y).map Ordering.swap := by
  rcases x with (_ | _) | _ | _ | ⟨_ | _, m, e, hm⟩ <;>
    rcases y with (_ | _) | _ | _ | ⟨_ | _, m', e', hm'⟩ <;>
      first
        | rfl
        | exact congrArg some (compare_then_swap _ _ _ _)
        | exact congrArg some (congrArg Ordering.swap (compare_then_swap _ _ _ _))

theorem order_swap (x y : Float) : order y x = (order x y).map Ordering.swap :=
  compare_swap _ _

theorem not_lt_of_le {x y : Float} (h : x ≤ y) : ¬ y < x := by
  rw [lt_iff_order, order_swap]
  rcases le_iff_order.1 h with h | h <;> simp [h]

theorem beq_or_lt_of_le {x y : Float} (h : x ≤ y) : (x == y) = true ∨ x < y := by
  rw [beq_iff_order, lt_iff_order]
  exact (le_iff_order.1 h).symm

theorem le_of_beq {x y : Float} (h : (x == y) = true) : x ≤ y :=
  le_iff_order.2 (.inr (beq_iff_order.1 h))

theorem le_of_lt {x y : Float} (h : x < y) : x ≤ y :=
  le_iff_order.2 (.inl (lt_iff_order.1 h))

/-- What equals one lies above zero. -/
theorem zero_le_of_beq_one {x : Float} (h : (x == 1.0) = true) : 0.0 ≤ x := by
  have hzero : (0.0 : Float).toModel.unpack = .zero .positive := rfl
  have hone : (1.0 : Float).toModel.unpack = .finite .positive (2 ^ 52) (-52) (by decide) := rfl
  rw [beq_iff_order, order, hone] at h
  rw [le_iff_order, order, hzero]
  generalize x.toModel.unpack = u at h
  rcases u with (_ | _) | _ | _ | ⟨_ | _, m, e, hm⟩ <;> first
    | cases h
    | exact .inl rfl

end Binary64
end TxWorkload
