/-!
# Decimal — plain decimal numerals

Readers for unsigned numerals as configuration values are written: an optional plus sign and one
or more ASCII digits. Two-digit padding for clock fields.
-/

namespace TxWorkload
namespace Text

/-- The value of an ASCII decimal digit. -/
def decimalDigit? (c : Char) : Option Nat :=
  if '0' ≤ c ∧ c ≤ '9' then some (c.toNat - '0'.toNat) else none

/-- Fold digits onto a value, most significant first; `none` at a character that is no digit. -/
def decimalDigits? (value : Nat) : List Char → Option Nat
  | [] => some value
  | c :: cs =>
      match decimalDigit? c with
      | some d => decimalDigits? (value * 10 + d) cs
      | none => none

/-- The numeral after its sign: at least one digit, and nothing but digits. -/
def unsignedNumeral? : List Char → Option Nat
  | [] => none
  | c :: cs => decimalDigits? 0 (c :: cs)

/-- A numeral with an optional plus sign. -/
def numeral? : List Char → Option Nat
  | '+' :: cs => unsignedNumeral? cs
  | cs => unsignedNumeral? cs

/-- A numeral below `2 ^ 64`. -/
def word64? (cs : List Char) : Option UInt64 :=
  match numeral? cs with
  | some n => if n < UInt64.size then some (UInt64.ofNat n) else none
  | none => none

/-- At least two digits, with a leading zero below ten. -/
def twoDigits (n : Nat) : String :=
  if n < 10 then "0" ++ toString n else toString n

end Text
end TxWorkload
