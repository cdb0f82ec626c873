import TxWorkload.Random.Range

/-!
# Weighted — chances in proportion to weights

The weights lie one behind the other on a line, and a point of the line is drawn from the low half
of a word. The pick is the weight that the point falls on.
-/

namespace TxWorkload
namespace Random

/-- The sum of weights. -/
def total (weights : List Nat) : Nat :=
  weights.foldr (· + ·) 0

/-- The greatest low half that is accepted for 32-bit draws: as many draws are rejected as are left
over when all of them are shared out equally. -/
def zone32 (total : Nat) : Nat :=
  UInt32.size - 1 - UInt32.size % total

/-- The point that the low half of a word picks below `total`, if it is accepted. -/
def point (total : Nat) (word : UInt64) : Option (Fin total) :=
  stretch UInt32.size (zone32 total) total word.toUInt32.toNat word.toUInt32.toNat_lt_size

/-- The position of the weight on which a point falls. A point behind all weights falls on the
last one. -/
def fallsOn : (weights : List Nat) → (x : Nat) → Nat
  | [], _ => 0
  | [_], _ => 0
  | w :: v :: rest, x => if x < w then 0 else fallsOn (v :: rest) (x - w) + 1

theorem fallsOn_lt {weights : List Nat} (h : weights ≠ []) (x : Nat) :
    fallsOn weights x < weights.length := by
  induction weights generalizing x with
  | nil => exact absurd rfl h
  | cons w rest ih =>
      cases rest with
      | nil => simp [fallsOn]
      | cons v rest =>
          rw [fallsOn]
          split
          · simp
          · have := ih (by simp) (x - w)
            simp only [List.length_cons] at this ⊢
            omega

/-- The position of a weight, drawn with the chances that the weights give. -/
def weighted (weights : List Nat) (h : weights ≠ []) : Draw (Fin weights.length) := do
  let x ← Draw.first (point (total weights))
  return ⟨fallsOn weights x, fallsOn_lt h x⟩

end Random
end TxWorkload
