import TxWorkload.Hex.Digit

/-!
# CodePoints — compact tables of Unicode properties

A set of code points is written as hexadecimal ranges (`41-5a` or a single `aa`), separated by
blanks; a case mapping as rows `first last stride image`, separated by commas. The text form is
read once, when a table is first used.
-/

namespace TxWorkload
namespace Text

namespace CodePoints

/-- The number at the front of a table text; a character that is no digit ends it. -/
def number (cs : List Char) : Nat :=
  (cs.map Hex.digit?).foldl (fun n d => match d with | some d => n * 16 + d | none => n) 0

/-- Cut at a character, dropping empty pieces. -/
def pieces (sep : Char) (cs : List Char) : List (List Char) :=
  let step := fun (acc : List Char × List (List Char)) c =>
    if c = sep then ([], acc.1.reverse :: acc.2) else (c :: acc.1, acc.2)
  let (last, done) := cs.foldl step ([], [])
  ((last.reverse :: done).reverse).filter (fun piece => !piece.isEmpty)

/-- A range is one number, or two joined by a hyphen. -/
def range (cs : List Char) : Nat × Nat :=
  match pieces '-' cs with
  | [low, high] => (number low, number high)
  | _ => (number cs, number cs)

/-- The ranges of a table text, in its order. -/
def ranges (table : String) : Array (Nat × Nat) :=
  ((pieces ' ' table.toList).map range).toArray

/-- Whether a code point lies in one of the ranges. -/
def mem (table : Array (Nat × Nat)) (c : Char) : Bool :=
  table.any fun r => r.1 ≤ c.toNat && c.toNat ≤ r.2

/-- A row of a case mapping: every `stride`-th code point from `first` to `last` goes to the code
point as far behind `image` as it is behind `first`. -/
structure CaseRow where
  first : Nat
  last : Nat
  stride : Nat
  image : Nat

/-- The rows of a table text. -/
def caseRows (table : String) : Array CaseRow :=
  let row := fun cs =>
    match (pieces ' ' cs).map number with
    | [first, last, stride, image] => some ⟨first, last, stride, image⟩
    | _ => none
  ((pieces ',' table.toList).filterMap row).toArray

/-- The image of a code point under the rows, if one of them moves it. -/
def caseImage? (rows : Array CaseRow) (n : Nat) : Option Nat :=
  (rows.find? fun r => r.first ≤ n && n ≤ r.last && (n - r.first) % r.stride == 0).map
    fun r => r.image + (n - r.first)

/-- Code points that map to several: the first number of a row, and the others. -/
def expansions (table : String) : Array (Nat × List Nat) :=
  let row := fun cs =>
    match (pieces ' ' cs).map number with
    | first :: images => some (first, images)
    | [] => none
  ((pieces ',' table.toList).filterMap row).toArray

end CodePoints
end Text
end TxWorkload
