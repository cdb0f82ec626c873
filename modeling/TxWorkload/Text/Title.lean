import TxWorkload.Text.Alphanumeric
import TxWorkload.Text.LetterCase

/-!
# Title — capitalised words

A word is a run of alphanumeric characters. Its first character is put in upper case and the
others in lower case, so `large_transfer` becomes `Large_Transfer`.
-/

namespace TxWorkload
namespace Text

/-- Capitalise, given whether the next character starts a word. -/
def titleList (starts : Bool) : List Char → List Char
  | [] => []
  | c :: cs =>
      (if starts then upperCase c else lowerCase c) ++ titleList (!isAlphanumeric c) cs

/-- The text with every word capitalised. -/
def title (s : String) : String :=
  String.ofList (titleList true s.toList)

end Text
end TxWorkload
