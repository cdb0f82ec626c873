/-!
# Short — the shown part of a long identifier

Log lines show the first ten bytes of an address or a hash and three dots. A text of at most ten
bytes is shown whole, and so is one whose tenth byte does not end a character.
-/

namespace TxWorkload
namespace Hex

/-- How many bytes of an identifier are shown. -/
def shownBytes : Nat := 10

/-- The characters that fill exactly `size` bytes, if some of them do. -/
def leadingBytes? (size : Nat) : List Char → Option (List Char)
  | [] => if size = 0 then some [] else none
  | c :: cs =>
      if size = 0 then some []
      else if c.utf8Size ≤ size then (leadingBytes? (size - c.utf8Size) cs).map (c :: ·)
      else none

/-- The shown form of an identifier. -/
def short (s : String) : String :=
  match leadingBytes? shownBytes s.toList with
  | some lead => if shownBytes < s.utf8ByteSize then String.ofList lead ++ "..." else s
  | none => s

end Hex
end TxWorkload
