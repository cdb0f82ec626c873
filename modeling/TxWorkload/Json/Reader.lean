import TxWorkload.Json.Number

/-!
# Reader — JSON values from bytes

One value with blanks around it and nothing behind it. Arrays and objects may be nested 127 deep,
counted from the outermost.
-/

namespace TxWorkload
namespace Json

/-- One more than the greatest nesting. -/
def nestingLimit : Nat := 128

/-- The levels of nesting left inside a bracket that is opened with `depth` of them left. -/
def nest (depth : Nat) : Except Flaw Nat :=
  if 1 < depth then .ok (depth - 1) else .error .malformed

/-- A word behind its first letter, and the value it stands for. -/
def scanWord (w : List Char) (v : Json) (b : UInt8) (rest : Bytes) :
    Except Flaw (Scan (b :: rest) Json) := do
  let r ← literal (w.map byte) rest
  return Scan.upTo v b r

/-- A value that is no array and no object, given its first byte. -/
def scanScalar (b : UInt8) (rest : Bytes) : Except Flaw (Scan (b :: rest) Json) :=
  if b = byte 'n' then scanWord ['u', 'l', 'l'] .null b rest
  else if b = byte 't' then scanWord ['r', 'u', 'e'] (.bool true) b rest
  else if b = byte 'f' then scanWord ['a', 'l', 's', 'e'] (.bool false) b rest
  else if b = byte '"' then do
    let r ← quotedText rest
    return (r.map Json.text).cons b
  else if b = byte '-' then do
    let r ← number true rest
    return r.cons b
  else if isDigitByte b then number false (b :: rest)
  else .error .malformed

mutual

/-- A value, with `depth - 1` levels of nesting left. -/
def scanValue (depth : Nat) (s : Bytes) : Except Flaw (Scan s Json) :=
  match hs : skipBlanks s with
  | [] => .error .eof
  | b :: rest =>
      have := length_lt_of_skipBlanks hs
      if b = byte '[' then do
        let inner ← nest depth
        let r ← scanItems inner true rest
        return (r.map Json.array).behind hs
      else if b = byte '\x7b' then do
        let inner ← nest depth
        let r ← scanMembers inner true rest
        return (r.map ofMembers).behind hs
      else do
        let r ← scanScalar b rest
        return r.skipped hs
termination_by (s.length, 0)
decreasing_by all_goals exact Prod.Lex.left _ _ (by assumption)

/-- The items of an array up to its closing bracket; all but the first stand behind a comma. -/
def scanItems (depth : Nat) (first : Bool) (s : Bytes) : Except Flaw (Scan s (List Json)) :=
  match hs : skipBlanks s with
  | [] => .error .eof
  | b :: rest =>
      have hlen := length_lt_of_skipBlanks hs
      if b = byte ']' then .ok ⟨[], rest, hlen⟩
      else if first then do
        let item ← scanValue depth s
        have := item.shorter
        let items ← scanItems depth false item.rest
        return item.followedBy (items.map (item.value :: ·))
      else if b = byte ',' then do
        let item ← scanValue depth rest
        have : item.rest.length < s.length := Nat.lt_trans item.shorter hlen
        let items ← scanItems depth false item.rest
        return (item.followedBy (items.map (item.value :: ·))).behind hs
      else .error .malformed
termination_by (s.length, 1)
decreasing_by
  · exact Prod.Lex.right _ (by decide)
  · exact Prod.Lex.left _ _ (by assumption)
  · exact Prod.Lex.left _ _ hlen
  · exact Prod.Lex.left _ _ (by assumption)

/-- The members of an object up to its closing brace; all but the first stand behind a comma. -/
def scanMembers (depth : Nat) (first : Bool) (s : Bytes) :
    Except Flaw (Scan s (List (String × Json))) :=
  match hs : skipBlanks s with
  | [] => .error .eof
  | b :: rest =>
      have hlen := length_lt_of_skipBlanks hs
      if b = byte '\x7d' then .ok ⟨[], rest, hlen⟩
      else if first ∨ b = byte ',' then do
        let key ← if first then keyText s else (keyText rest).map (·.behind hs)
        let mark ← colon key.rest
        have hmark : mark.rest.length < s.length := Nat.lt_trans mark.shorter key.shorter
        let value ← scanValue depth mark.rest
        have : value.rest.length < s.length := Nat.lt_trans value.shorter hmark
        let members ← scanMembers depth false value.rest
        return key.followedBy (mark.followedBy (value.followedBy
          (members.map ((key.value, value.value) :: ·))))
      else .error .malformed
termination_by (s.length, 1)
decreasing_by
  · exact Prod.Lex.left _ _ hmark
  · exact Prod.Lex.left _ _ (by assumption)

end

/-- Nothing but blanks. -/
def atEnd (s : Bytes) : Except Flaw Unit :=
  if (skipBlanks s).isEmpty then .ok () else .error .malformed

/-- Read one value from bytes. -/
def read (s : Bytes) : Except Flaw Json := do
  let r ← scanValue nestingLimit s
  atEnd r.rest
  return r.value

end Json
end TxWorkload
