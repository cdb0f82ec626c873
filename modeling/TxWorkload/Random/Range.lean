import TxWorkload.Random.Supply

/-!
# Range — equal chances for the numbers of a range

A draw is stretched to the size of the range by a product of twice its width, whose high half is
the pick. A draw is rejected if the low half lies beyond a zone, which makes the same number of
draws count for every pick.
-/

namespace TxWorkload
namespace Random

/-! ## One draw -/

theorem mul_div_lt {draw width size : Nat} (h : draw < width) (hs : 0 < size) :
    draw * size / width < size := by
  rw [Nat.div_lt_iff_lt_mul (Nat.lt_of_le_of_lt (Nat.zero_le draw) h), Nat.mul_comm size]
  exact Nat.mul_lt_mul_of_pos_right h hs

/-- The greatest low half that is accepted for 64-bit draws: the largest multiple of `size` by a
power of two that fits 64 bits, less one. -/
def zone (size : Nat) : Nat :=
  size <<< (63 - size.log2) - 1

/-- What one of `width` draws picks below `size`, if it is accepted. -/
def stretch (width zone size draw : Nat) (h : draw < width) : Option (Fin size) :=
  if draw * size % width ≤ zone then
    if hs : 0 < size then some ⟨draw * size / width, mul_div_lt h hs⟩ else none
  else none

/-- What a word picks below `size`, if it is accepted. -/
def below (size : Nat) (word : UInt64) : Option (Fin size) :=
  stretch UInt64.size (zone size) size word.toNat word.toNat_lt_size

/-! ## Draws -/

/-- A number below `size`. -/
def index (size : Nat) : Draw (Fin size) :=
  if size = 0 then Draw.abort .emptyRange else Draw.first (below size)

/-- A number from `least` to `most`, both included. -/
def pick (least most : UInt64) : Draw UInt64 :=
  if least ≤ most then do
    let i ← index (most.toNat - least.toNat + 1)
    return least + UInt64.ofNat i
  else Draw.abort .emptyRange

end Random
end TxWorkload
