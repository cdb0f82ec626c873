/-!
# Blank — white space and trimming

The white-space class is the Unicode property `White_Space`: 25 code points, ASCII or not. `trim`
cuts the blanks at both ends of a text, `split` cuts a text at every separator.
-/

namespace TxWorkload
namespace Text

/-! ## The class -/

/-- The code points with the Unicode property `White_Space`. -/
def isBlank (c : Char) : Bool :=
  let n := c.toNat
  (0x09 ≤ n && n ≤ 0x0d) || n == 0x20 || n == 0x85 || n == 0xa0 || n == 0x1680 ||
    (0x2000 ≤ n && n ≤ 0x200a) || n == 0x2028 || n == 0x2029 || n == 0x202f || n == 0x205f ||
    n == 0x3000

/-! ## Trimming -/

/-- Drop the blanks at the front and at the back. -/
def trimList (cs : List Char) : List Char :=
  ((cs.dropWhile isBlank).reverse.dropWhile isBlank).reverse

/-- Drop the blanks at both ends of a text. -/
def trim (s : String) : String :=
  String.ofList (trimList s.toList)

/-! ## Splitting -/

/-- The pieces between separators; there is always one more piece than separators. -/
def splitList (sep : Char) : List Char → List (List Char)
  | [] => [[]]
  | c :: cs =>
      if c = sep then
        [] :: splitList sep cs
      else
        match splitList sep cs with
        | [] => [[c]]
        | piece :: rest => (c :: piece) :: rest

/-- The pieces of a text between separators. -/
def split (sep : Char) (s : String) : List String :=
  (splitList sep s.toList).map String.ofList

end Text
end TxWorkload
