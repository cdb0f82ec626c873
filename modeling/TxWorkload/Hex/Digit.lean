/-!
# Digit — hexadecimal digits

One digit in either case has a value below sixteen; a numeral is written in lower case without
leading zeros.
-/

namespace TxWorkload
namespace Hex

/-- The value of one hexadecimal digit in either case. -/
def digit? (c : Char) : Option Nat :=
  if '0' ≤ c ∧ c ≤ '9' then some (c.toNat - '0'.toNat)
  else if 'a' ≤ c ∧ c ≤ 'f' then some (c.toNat - 'a'.toNat + 10)
  else if 'A' ≤ c ∧ c ≤ 'F' then some (c.toNat - 'A'.toNat + 10)
  else none

/-- The digit of a value below sixteen, in lower case. -/
def digit (n : Nat) : Char :=
  Nat.digitChar n

/-- The lower case numeral of a number: no leading zero, one digit for zero. -/
def numeral (n : Nat) : List Char :=
  Nat.toDigits 16 n

/-- Fold digits onto a value, most significant first; `none` at a character that is no digit. -/
def digits? (value : Nat) : List Char → Option Nat
  | [] => some value
  | c :: cs =>
      match digit? c with
      | some d => digits? (value * 16 + d) cs
      | none => none

end Hex
end TxWorkload
