import TxWorkload.Hex.Digit
import TxWorkload.Text.Printable

/-!
# Quoted — texts and characters between quotes, in messages

A quoted text escapes the quote, the backslash, the usual control characters by a letter, and
every other character that cannot be shown by its code point in braces. A quoted character does
the same between apostrophes.
-/

namespace TxWorkload
namespace Text

/-- One character of a quoted text whose delimiter is `delimiter`. -/
def escapeChar (delimiter c : Char) : String :=
  if c = delimiter || c = '\\' then String.ofList ['\\', c]
  else if c = '\n' then "\\n"
  else if c = '\r' then "\\r"
  else if c = '\t' then "\\t"
  else if c.toNat = 0 then "\\0"
  else if isPrintable c then String.singleton c
  else "\\u\x7b" ++ String.ofList (Hex.numeral c.toNat) ++ "\x7d"

/-- A text between double quotes. -/
def quoted (s : String) : String :=
  "\"" ++ String.join (s.toList.map (escapeChar '"')) ++ "\""

/-- A character between apostrophes. -/
def quotedChar (c : Char) : String :=
  "'" ++ escapeChar '\'' c ++ "'"

end Text
end TxWorkload
