import TxWorkload.Hex.Digit

/-!
# Quantity — numbers in JSON-RPC texts

A quantity is written as `0x` and the lower case numeral. Reading is laxer: the marker may be
missing or have a capital `X`, digits may be of either case and padded with zeros, and a plus sign
may stand before them. The value must be below `2 ^ 64`.
-/

namespace TxWorkload
namespace Hex

/-- The written form of a quantity. -/
def quantity (n : UInt64) : String :=
  String.ofList ('0' :: 'x' :: numeral n.toNat)

/-- The text behind an optional marker. -/
def withoutMarker : List Char → List Char
  | '0' :: 'x' :: cs => cs
  | '0' :: 'X' :: cs => cs
  | cs => cs

/-- Digits behind an optional plus sign: at least one, and nothing else. -/
def unsigned? : List Char → Option Nat
  | [] => none
  | '+' :: [] => none
  | '+' :: c :: cs => digits? 0 (c :: cs)
  | c :: cs => digits? 0 (c :: cs)

/-- Read a quantity from its characters. -/
def quantityOfList? (cs : List Char) : Option UInt64 :=
  match unsigned? (withoutMarker cs) with
  | some n => if n < UInt64.size then some (UInt64.ofNat n) else none
  | none => none

/-- Read a quantity. -/
def quantity? (s : String) : Option UInt64 :=
  quantityOfList? s.toList

end Hex
end TxWorkload
