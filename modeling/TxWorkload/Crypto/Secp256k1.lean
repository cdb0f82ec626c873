/-!
# Secp256k1 — the curve of the accounts

The curve `y² = x³ + 7` over a prime field, in Jacobian coordinates: `(x, y, z)` stands for the
point `(x / z², y / z³)`, and `z = 0` for the point at infinity. A secret is a number from one to
the order of the group less one; its public point is the multiple of the base point by it.
-/

namespace TxWorkload
namespace Secp256k1

/-! ## The field -/

/-- The prime of the field. -/
def prime : Nat := 0xfffffffffffffffffffffffffffffffffffffffffffffffffffffffefffffc2f

/-- The order of the group. -/
def order : Nat := 0xfffffffffffffffffffffffffffffffebaaedce6af48a03bbfd25e8cd0364141

/-- A product in the field. -/
def mul (a b : Nat) : Nat := a * b % prime

/-- A difference in the field, of numbers below the prime. -/
def sub (a b : Nat) : Nat := (a + (prime - b)) % prime

/-- The power of `a` by the leading `n` of the 256 bits of `e`. -/
def powBits (a e : Nat) : Nat → Nat
  | 0 => 1
  | n + 1 =>
      let half := powBits a e n
      let square := mul half half
      if e.testBit (255 - n) then mul square a else square

/-- The inverse of a number that is not zero: its power by the prime less two. -/
def inverse (a : Nat) : Nat := powBits a (prime - 2) 256

/-! ## The group -/

/-- A point in Jacobian coordinates. -/
structure Point where
  x : Nat
  y : Nat
  z : Nat
  deriving DecidableEq, Repr

namespace Point

/-- The point at infinity. -/
def infinity : Point := ⟨1, 1, 0⟩

/-- The base point. -/
def base : Point :=
  ⟨0x79be667ef9dcbbac55a06295ce870b07029bfcdb2dce28d959f2815b16f81798,
   0x483ada7726a3c4655da4fbfc0e1108a8fd17b448a68554199c47d08ffb10d4b8, 1⟩

/-- Twice a point. -/
def double (p : Point) : Point :=
  let a := mul p.x p.x
  let b := mul p.y p.y
  let d := mul 4 (mul p.x b)
  let e := mul 3 a
  let x := sub (mul e e) (mul 2 d)
  ⟨x, sub (mul e (sub d x)) (mul 8 (mul b b)), mul 2 (mul p.y p.z)⟩

/-- The sum of two points. -/
def add (p q : Point) : Point :=
  if p.z = 0 then q
  else if q.z = 0 then p
  else
    let pz := mul p.z p.z
    let qz := mul q.z q.z
    let u := mul p.x qz
    let s := mul p.y (mul qz q.z)
    let h := sub (mul q.x pz) u
    let r := sub (mul q.y (mul pz p.z)) s
    if h = 0 then
      if r = 0 then double p else infinity
    else
      let hh := mul h h
      let hhh := mul hh h
      let v := mul u hh
      let x := sub (sub (mul r r) hhh) (mul 2 v)
      ⟨x, sub (mul r (sub v x)) (mul s hhh), mul h (mul p.z q.z)⟩

/-- The multiple of the base point by the leading `n` of the 256 bits of `k`. -/
def multiple (k : Nat) : Nat → Point
  | 0 => infinity
  | n + 1 =>
      let half := multiple k n
      if k.testBit (255 - n) then add (double half) base else double half

/-- The affine coordinates of a point that is not at infinity. -/
def affine (p : Point) : Nat × Nat :=
  let i := inverse p.z
  let ii := mul i i
  (mul p.x ii, mul p.y (mul ii i))

end Point

/-! ## Keys -/

/-- The 32 bytes of a number, most significant first. -/
def bytes32 (n : Nat) : List UInt8 :=
  (List.range 32).map fun i => UInt8.ofNat (n >>> (8 * (31 - i)))

/-- Whether a number is a secret. -/
def isSecret (k : Nat) : Bool :=
  0 < k && k < order

/-- The coordinates of the public point of a secret, as 64 bytes. -/
def publicKey (k : Nat) : List UInt8 :=
  let (x, y) := (Point.multiple k 256).affine
  bytes32 x ++ bytes32 y

end Secp256k1
end TxWorkload
