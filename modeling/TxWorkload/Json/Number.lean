import TxWorkload.Json.Scan

/-!
# Number — the value of a numeral

A numeral without fraction and exponent that fits 64 bits is an integer; minus zero is not. Any
other numeral is a floating-point number: as many digits as fit 64 bits are kept, and the rounded
number they form is multiplied or divided by one power of ten. A number that grows infinite has no
value.
-/

namespace TxWorkload
namespace Json

/-- Append a digit to a 64-bit number, if there is room for it. -/
def pushDigit? (n : UInt64) (d : Nat) : Option UInt64 :=
  if n.toNat * 10 + d < UInt64.size then some (UInt64.ofNat (n.toNat * 10 + d)) else none

/-- Append digits until one has no room; the count of digits not taken comes second. -/
def pushDigits (n : UInt64) : List Nat → UInt64 × Nat
  | [] => (n, 0)
  | d :: ds =>
      match pushDigit? n d with
      | some n' => pushDigits n' ds
      | none => (n, (d :: ds).length)

/-- The floating-point power of ten with an exponent up to 308. -/
def powerOfTen (n : Nat) : Float :=
  Float.ofScientific 1 false n

/-- A 64-bit number times a power of ten, if finite. Very small factors are applied in two steps,
of which the second may reach zero. -/
def scaleByTen (n : UInt64) (e : Int) : Option Float :=
  let x := n.toFloat
  if 0 ≤ e then
    if x == 0.0 then some 0.0
    else if e ≤ 308 then
      let y := x * powerOfTen e.toNat
      if y.isInf then none else some y
    else none
  else
    let k := (-e).toNat
    if k ≤ 308 then some (x / powerOfTen k)
    else if k ≤ 616 then some (x / powerOfTen 308 / powerOfTen (k - 308))
    else some 0.0

/-- The value of a numeral. -/
def Numeral.value? (n : Numeral) : Option Json :=
  let (whole, dropped) := pushDigits 0 n.whole
  if dropped = 0 ∧ n.fraction = none ∧ n.exponent = none then
    if !n.negative then some (.integer whole.toNat)
    else if whole = 0 ∨ UInt64.size / 2 < whole.toNat then some (.real (-whole.toFloat))
    else some (.integer (-whole.toNat))
  else
    let fraction := n.fraction.getD []
    let (significand, ignored) := pushDigits whole fraction
    let e := (dropped : Int) - ((fraction.length - ignored : Nat) : Int) + n.exponent.getD 0
    match scaleByTen significand e with
    | some x => some (.real (if n.negative then -x else x))
    | none => none

/-- A number behind its sign. -/
def number (negative : Bool) (s : Bytes) : Except Flaw (Scan s Json) := do
  let r ← numeral negative s
  match r.value.value? with
  | some v => return r.map fun _ => v
  | none => .error .malformed

end Json
end TxWorkload
