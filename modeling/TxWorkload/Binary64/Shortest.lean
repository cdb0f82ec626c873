import TxWorkload.Binary64.Parts

/-!
# Shortest — the fewest digits that read back

The real numbers that round to a given floating-point number form an interval around it, with its
ends included if the significand is even. `shortest` looks for the least number of decimal digits
with which some number of that interval can be written, and of those numbers takes the nearest.
Where two of them are equally near, the format that is written says which one it takes.
-/

namespace TxWorkload
namespace Binary64

/-! ## The interval of a number -/

/-- A positive number and the ends of its interval, over one denominator. -/
structure Interval where
  low : Nat
  value : Nat
  high : Nat
  den : Nat
  closed : Bool

/-- The interval of `significand * 2 ^ exponent`. Below a power of two the gap is half as wide,
except at the least normal number. -/
def interval (significand : Nat) (exponent : Int) : Interval :=
  let scale := ratio 1 (exponent - 2)
  let below := if significand = 1 <<< 52 ∧ -1074 < exponent then 1 else 2
  { low := (4 * significand - below) * scale.1
    value := 4 * significand * scale.1
    high := (4 * significand + 2) * scale.1
    den := scale.2
    closed := significand % 2 = 0 }

/-- Whether `num / den` lies in the interval. -/
def Interval.mem (i : Interval) (num den : Nat) : Bool :=
  let x := num * i.den
  if i.closed then i.low * den ≤ x && x ≤ i.high * den
  else i.low * den < x && x < i.high * den

/-! ## Decimal grids -/

/-- Which of two equally near numbers on a grid is taken. -/
inductive Tie
  | toEven
  | awayFromZero
  deriving DecidableEq, Repr

/-- Whether a tie goes to the lower neighbour, which is `floor` steps from zero. -/
def Tie.lower (tie : Tie) (floor : Nat) : Bool :=
  match tie with
  | .toEven => floor % 2 == 0
  | .awayFromZero => false

/-- Numerator and denominator of `n * 10 ^ e`. -/
def decimalRatio (n : Nat) (e : Int) : Nat × Nat :=
  if 0 ≤ e then (n * Nat.pow 10 e.toNat, 1) else (n, Nat.pow 10 (-e).toNat)

/-- Whether `10 ^ e ≤ num / den`. -/
def reaches (num den : Nat) (e : Int) : Bool :=
  let p := decimalRatio 1 e
  p.1 * den ≤ num * p.2

/-- The largest `e` with `10 ^ e ≤ num / den`, from an estimate that is off by one at most. -/
def magnitude (num den : Nat) : Int :=
  let estimate := ((num.log2 : Int) - (den.log2 : Int)) * 30103 / 100000
  if reaches num den (estimate + 1) then estimate + 1
  else if reaches num den estimate then estimate
  else estimate - 1

/-- The point of the grid of step `10 ^ e` in the interval that is nearest to its value: the
neighbour below or above. -/
def nearestOnGrid (tie : Tie) (i : Interval) (e : Int) : Option Nat :=
  let step := decimalRatio 1 e
  let num := i.value * step.2
  let den := i.den * step.1
  let floor := num / den
  let holds := fun n => let p := decimalRatio n e; i.mem p.1 p.2
  let twice := 2 * (num % den)
  let lowerFirst := twice < den || (twice == den && tie.lower floor)
  let first := if lowerFirst then floor else floor + 1
  let second := if lowerFirst then floor + 1 else floor
  if 0 < first && holds first then some first
  else if 0 < second && holds second then some second
  else none

/-- Try grids from coarse to fine. -/
def searchGrids (tie : Tie) (i : Interval) (top : Int) : Nat → Nat × Int
  | 0 => (0, 0)
  | left + 1 =>
      let e := top - (17 - (left + 1) : Nat)
      match nearestOnGrid tie i e with
      | some n => (n, e)
      | none => searchGrids tie i top left

/-- Drop the trailing zeros of a digit string, counting them into the exponent. -/
def stripZeros (digits : List Char) (e : Int) : List Char × Int :=
  let kept := (digits.reverse.dropWhile (· == '0')).reverse
  (kept, e + (digits.length - kept.length : Nat))

/-- The digits `d₁ d₂ …` and the exponent `e` of the shortest decimal `d₁d₂… * 10 ^ e` that reads
back as `significand * 2 ^ exponent`, which must not be zero. -/
def shortest (tie : Tie) (significand : Nat) (exponent : Int) : List Char × Int :=
  let i := interval significand exponent
  let found := searchGrids tie i (magnitude i.value i.den) 17
  stripZeros (Nat.toDigits 10 found.1) found.2

/-! ## Positional text -/

/-- A positional numeral for digits times a power of ten: all zeros written out, a point only
before decimals. -/
def positional (digits : List Char) (e : Int) : List Char :=
  if 0 ≤ e then digits ++ List.replicate e.toNat '0'
  else
    let places := (-e).toNat
    if places < digits.length then
      digits.take (digits.length - places) ++ '.' :: digits.drop (digits.length - places)
    else '0' :: '.' :: List.replicate (places - digits.length) '0' ++ digits

/-- A number as it is shown inside a message: the shortest digits in positional notation, where a
tie goes away from zero. -/
def plain (x : Float) : String :=
  let signed := fun (negative : Bool) (text : String) => if negative then "-" ++ text else text
  match parts x with
  | .nan => "NaN"
  | .infinite negative => signed negative "inf"
  | .finite negative 0 _ => signed negative "0"
  | .finite negative m q =>
      let (digits, e) := shortest .awayFromZero m q
      signed negative (String.ofList (positional digits e))

end Binary64
end TxWorkload
