import TxWorkload.Hex.Digit
import TxWorkload.Text.Quoted

/-!
# Bytes — byte strings in hexadecimal

Two lower case digits a byte when written, two digits of either case when read. A text of odd
length is refused before its digits are looked at; otherwise the first character that is no digit
is reported with its byte position.
-/

namespace TxWorkload
namespace Hex

/-- Why a text is no byte string. A character is reported by the byte at fault. -/
inductive Fault
  | oddLength
  | badDigit (byte : UInt8) (position : Nat)
  deriving DecidableEq, Repr

/-- The wording of a fault; the byte is shown as the character of the same number. -/
def Fault.message : Fault → String
  | .oddLength => "Odd number of digits"
  | .badDigit byte position =>
      s!"Invalid character {Text.quotedChar (Char.ofNat byte.toNat)} at position {position}"

/-! ## Writing -/

/-- The two digits of a byte. -/
def byteDigits (b : UInt8) : List Char :=
  [digit (b.toNat / 16), digit (b.toNat % 16)]

/-- The digits of a byte string. -/
def encodeList (bytes : List UInt8) : List Char :=
  bytes.flatMap byteDigits

/-- The written form of payload bytes: a marker and the digits. -/
def data (bytes : List UInt8) : String :=
  String.ofList ('0' :: 'x' :: encodeList bytes)

/-! ## Reading -/

/-- The value of the digit that a byte of text stands for. -/
def byteDigit (byte : UInt8) (position : Nat) : Except Fault Nat :=
  match digit? (Char.ofNat byte.toNat) with
  | some d => .ok d
  | none => .error (.badDigit byte position)

/-- Read pairs of digits; `position` is that of the first byte of the text. -/
def decodePairs (position : Nat) : List UInt8 → Except Fault (List UInt8)
  | [] => .ok []
  | [_] => .error .oddLength
  | a :: b :: rest => do
      let high ← byteDigit a position
      let low ← byteDigit b (position + 1)
      let bytes ← decodePairs (position + 2) rest
      return UInt8.ofNat (high * 16 + low) :: bytes

/-- Read a byte string from the bytes of a text. -/
def decode (text : List UInt8) : Except Fault (List UInt8) :=
  if text.length % 2 = 0 then decodePairs 0 text else .error .oddLength

/-- The number that bytes denote, most significant first. -/
def bigEndian (bytes : List UInt8) : Nat :=
  bytes.foldl (fun n b => n * 256 + b.toNat) 0

end Hex
end TxWorkload
