/-!
# Ascii — comparisons that ignore the case of ASCII letters
-/

namespace TxWorkload
namespace Text

/-- A text with its ASCII letters in lower case. -/
def lowerAscii (s : String) : String :=
  String.ofList (s.toList.map Char.toLower)

/-- Whether two texts differ in the case of ASCII letters at most. -/
def sameIgnoringCase (a b : String) : Bool :=
  a.toList.map Char.toLower == b.toList.map Char.toLower

end Text
end TxWorkload
