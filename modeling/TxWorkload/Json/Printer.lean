import TxWorkload.Binary64.Shortest
import TxWorkload.Hex.Digit
import TxWorkload.Json.Value

/-!
# Printer — compact JSON text

No blanks between tokens. A text escapes the quote, the backslash and the control characters below
the space, and nothing else. A floating-point number is written with the fewest digits that read
back, a tie going to the even ones: positional, with a decimal point, while its leading digit
stands between the fifth decimal place and the sixteenth digit before the point, and with a signed
exponent otherwise.
-/

namespace TxWorkload
namespace Json

/-! ## Texts -/

/-- One character of a JSON text. -/
def escapedChar (c : Char) : List Char :=
  if c = '"' then ['\\', '"']
  else if c = '\\' then ['\\', '\\']
  else if c.toNat = 8 then ['\\', 'b']
  else if c.toNat = 12 then ['\\', 'f']
  else if c = '\n' then ['\\', 'n']
  else if c = '\r' then ['\\', 'r']
  else if c = '\t' then ['\\', 't']
  else if c.toNat < 32 then
    ['\\', 'u', '0', '0', Hex.digit (c.toNat / 16), Hex.digit (c.toNat % 16)]
  else [c]

/-- A text between quotes. -/
def textLiteral (s : String) : String :=
  String.ofList ('"' :: s.toList.flatMap escapedChar ++ ['"'])

/-! ## Numbers -/

/-- The least and the greatest decimal exponent of a leading digit in positional notation. -/
def positionalExponents : Int × Int := (-5, 15)

/-- The text of digits times a power of ten. -/
def realDigits (digits : List Char) (e : Int) : List Char :=
  let leading := e + ((digits.length : Int) - 1)
  if positionalExponents.1 ≤ leading ∧ leading ≤ positionalExponents.2 then
    Binary64.positional digits e ++ (if 0 ≤ e then ['.', '0'] else [])
  else
    let fraction := digits.drop 1
    digits.take 1 ++ (if fraction.isEmpty then [] else '.' :: fraction) ++
      'e' :: (if 0 ≤ leading then '+' else '-') :: Nat.toDigits 10 leading.natAbs

/-- The text of a floating-point number; one that is not finite has no JSON form but `null`. -/
def realLiteral (x : Float) : String :=
  match Binary64.parts x with
  | .finite negative 0 _ => if negative then "-0.0" else "0.0"
  | .finite negative m q =>
      let (digits, e) := Binary64.shortest .toEven m q
      let body := String.ofList (realDigits digits e)
      if negative then "-" ++ body else body
  | _ => "null"

/-! ## Values -/

mutual

/-- The compact text of a value. -/
def render : Json → String
  | .null => "null"
  | .bool b => if b then "true" else "false"
  | .integer n => toString n
  | .real x => realLiteral x
  | .text s => textLiteral s
  | .array [] => "[]"
  | .array (item :: items) => "[" ++ render item ++ renderItems items
  | .object [] => "\x7b\x7d"
  | .object (m :: members) => "\x7b" ++ renderMember m ++ renderMembers members

/-- The further items of an array, each behind a comma, and the closing bracket. -/
def renderItems : List Json → String
  | [] => "]"
  | item :: items => "," ++ render item ++ renderItems items

/-- A key and its value. -/
def renderMember : String × Json → String
  | (key, value) => textLiteral key ++ ":" ++ render value

/-- The further members of an object, each behind a comma, and the closing brace. -/
def renderMembers : List (String × Json) → String
  | [] => "\x7d"
  | m :: members => "," ++ renderMember m ++ renderMembers members

end

end Json
end TxWorkload
