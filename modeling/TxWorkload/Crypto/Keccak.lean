/-!
# Keccak — the 256-bit Keccak hash

The sponge with a rate of 136 bytes and the padding of the first Keccak submission, whose first
padding byte is one. The state is a list of 25 lanes of 64 bits; lane `x + 5 * y` stands in
column `x` of row `y`.
-/

namespace TxWorkload
namespace Keccak

/-! ## The permutation -/

/-- The lanes of the sponge. -/
abbrev State := List UInt64

/-- The lane in column `x` of row `y`, with columns and rows counted modulo five. -/
def lane (a : State) (x y : Nat) : UInt64 :=
  a.getD (x % 5 + 5 * (y % 5)) 0

/-- The state whose lanes are given by column and row. -/
def ofLanes (f : Nat → Nat → UInt64) : State :=
  (List.range 25).map fun i => f (i % 5) (i / 5)

/-- Rotate to the left. -/
def rotate (w : UInt64) (n : Nat) : UInt64 :=
  if n = 0 then w else (w <<< UInt64.ofNat n) ||| (w >>> UInt64.ofNat (64 - n))

/-- The distances by which the lanes are rotated. -/
def offsets : List Nat :=
  [0, 1, 62, 28, 27, 36, 44, 6, 55, 20, 3, 10, 43, 25, 39, 41, 45, 15, 21, 8, 18, 2, 61, 56, 14]

/-- The constants of the rounds. -/
def roundConstants : List UInt64 :=
  [0x0000000000000001, 0x0000000000008082, 0x800000000000808a, 0x8000000080008000,
   0x000000000000808b, 0x0000000080000001, 0x8000000080008081, 0x8000000000008009,
   0x000000000000008a, 0x0000000000000088, 0x0000000080008009, 0x000000008000000a,
   0x000000008000808b, 0x800000000000008b, 0x8000000000008089, 0x8000000000008003,
   0x8000000000008002, 0x8000000000000080, 0x000000000000800a, 0x800000008000000a,
   0x8000000080008081, 0x8000000000008080, 0x0000000080000001, 0x8000000080008008]

/-- Mix the parities of two neighbouring columns into every lane. -/
def theta (a : State) : State :=
  let parity := (List.range 5).map fun x =>
    lane a x 0 ^^^ lane a x 1 ^^^ lane a x 2 ^^^ lane a x 3 ^^^ lane a x 4
  let mix := (List.range 5).map fun x =>
    parity.getD ((x + 4) % 5) 0 ^^^ rotate (parity.getD ((x + 1) % 5) 0) 1
  ofLanes fun x y => lane a x y ^^^ mix.getD x 0

/-- Rotate every lane, and move it to its new place. -/
def rhoPi (a : State) : State :=
  ofLanes fun x y =>
    let source := x + 3 * y
    rotate (lane a source x) (offsets.getD (source % 5 + 5 * x) 0)

/-- Combine every lane with the two to its right. -/
def chi (a : State) : State :=
  ofLanes fun x y => lane a x y ^^^ (~~~(lane a (x + 1) y) &&& lane a (x + 2) y)

/-- Add a constant to the first lane. -/
def iota (constant : UInt64) : State → State
  | [] => []
  | a :: rest => (a ^^^ constant) :: rest

/-- The permutation of the state. -/
def permute (a : State) : State :=
  roundConstants.foldl (fun a constant => iota constant (chi (rhoPi (theta a)))) a

/-! ## The sponge -/

/-- Bytes absorbed at a time. -/
def rate : Nat := 136

/-- Append the padding: a one, zeros, and the highest bit of the last byte of a block. -/
def pad (message : List UInt8) : List UInt8 :=
  let free := rate - message.length % rate
  if free = 1 then message ++ [0x81]
  else message ++ 0x01 :: List.replicate (free - 2) 0x00 ++ [0x80]

/-- The lane of eight bytes, least significant first. -/
def laneOfBytes (bytes : List UInt8) : UInt64 :=
  bytes.foldr (fun b w => w * 256 + b.toUInt64) 0

/-- The bytes of a lane, least significant first. -/
def bytesOfLane (w : UInt64) : List UInt8 :=
  (List.range 8).map fun i => (w >>> UInt64.ofNat (8 * i)).toUInt8

/-- Mix one block into the state and permute it. -/
def absorb (a : State) (block : List UInt8) : State :=
  permute <| (List.range 25).map fun i =>
    a.getD i 0 ^^^ (if 8 * i < rate then laneOfBytes ((block.drop (8 * i)).take 8) else 0)

/-- The hash of a message. -/
def hash256 (message : List UInt8) : List UInt8 :=
  let padded := pad message
  let blocks := (List.range (padded.length / rate)).map fun i => (padded.drop (rate * i)).take rate
  let final := blocks.foldl absorb (List.replicate 25 0)
  (final.take 4).flatMap bytesOfLane

end Keccak
end TxWorkload
