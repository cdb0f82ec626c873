import TxWorkload.Crypto.Keccak

/-!
# Keccak — the length of a hash

Every round leaves 25 lanes, and so does every block that is absorbed. A hash is made of four lanes,
which are eight bytes each.
-/

namespace TxWorkload
namespace Keccak

/-! ## Lanes -/

theorem length_ofLanes (f : Nat → Nat → UInt64) : (ofLanes f).length = 25 := by
  rw [ofLanes, List.length_map, List.length_range]

theorem length_iota (constant : UInt64) (a : State) : (iota constant a).length = a.length := by
  cases a <;> rfl

/-- Steps that leave 25 lanes leave 25 lanes together. -/
theorem length_foldl {α : Type} {step : State → α → State}
    (hstep : ∀ a x, a.length = 25 → (step a x).length = 25) (xs : List α) {a : State}
    (h : a.length = 25) : (xs.foldl step a).length = 25 := by
  induction xs generalizing a with
  | nil => exact h
  | cons x xs ih => exact ih (hstep a x h)

theorem length_permute {a : State} (h : a.length = 25) : (permute a).length = 25 := by
  apply length_foldl _ _ h
  intro a constant _
  rw [length_iota]
  exact length_ofLanes _

theorem length_absorb (a : State) (block : List UInt8) : (absorb a block).length = 25 := by
  apply length_permute
  rw [List.length_map, List.length_range]

/-! ## Bytes -/

theorem length_bytesOfLane (w : UInt64) : (bytesOfLane w).length = 8 := by
  rw [bytesOfLane, List.length_map, List.length_range]

theorem length_flatMap_bytesOfLane (lanes : State) :
    (lanes.flatMap bytesOfLane).length = lanes.length * 8 := by
  induction lanes with
  | nil => rfl
  | cons w lanes ih =>
      rw [List.flatMap_cons, List.length_append, length_bytesOfLane, ih, List.length_cons,
        Nat.succ_mul, Nat.add_comm]

/-- A hash has 32 bytes. -/
theorem length_hash256 (message : List UInt8) : (hash256 message).length = 32 := by
  have hfinal (blocks : List (List UInt8)) :
      (blocks.foldl absorb (List.replicate 25 0)).length = 25 :=
    length_foldl (fun a block _ => length_absorb a block) blocks List.length_replicate
  unfold hash256
  rw [length_flatMap_bytesOfLane, List.length_take, hfinal]
  rfl

end Keccak
end TxWorkload
