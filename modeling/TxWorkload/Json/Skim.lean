import TxWorkload.Json.Scan

/-!
# Skim — passing over a value that nobody wants

The value of an unknown key is checked for its form alone: no limit on nesting, no range of
numbers, no pairing of surrogates, no UTF-8. Open brackets are kept on a stack. A numeral that
breaks off at the end of the input is malformed here, not early.
-/

namespace TxWorkload
namespace Json

/-- An open bracket. -/
inductive Bracket
  | square
  | curly
  deriving DecidableEq, Repr

/-- Pass over the rest of a text; the byte behind a backslash must start an escape. -/
def skimText (s : Bytes) : Except Flaw (Scan s Unit) :=
  match s with
  | [] => .error .eof
  | b :: rest =>
      if b = byte '"' then .ok (Scan.single () b rest)
      else if b = byte '\\' then
        match rest with
        | [] => .error .eof
        | c :: rest' =>
            if (simpleEscape? c).isSome then do
              let r ← skimText rest'
              return (r.cons c).cons b
            else if c = byte 'u' then do
              let h ← hexFour rest'
              have := h.shorter
              let r ← skimText h.rest
              return ((h.followedBy r).cons c).cons b
            else .error .malformed
      else if b < 0x20 then .error .malformed
      else do
        let r ← skimText rest
        return r.cons b
termination_by s.length
decreasing_by all_goals simp only [List.length_cons]; omega

/-- A numeral that ends early is malformed. -/
def skimNumeral (negative : Bool) (s : Bytes) : Except Flaw (Scan s Unit) :=
  match numeral negative s with
  | .ok r => .ok (r.map fun _ => ())
  | .error _ => .error .malformed

/-- What may come next: a value, a key, the first thing behind an opening bracket, or what stands
behind a value. -/
inductive Skimming
  | value
  | key
  | opened
  | behind
  deriving DecidableEq, Repr

/-- Pass over the first token of a value: the brackets it opens, and what may come next. -/
def skimToken (brackets : List Bracket) (b : UInt8) (rest : Bytes) :
    Except Flaw (Scan (b :: rest) (List Bracket × Skimming)) :=
  let word := fun (w : List Char) => do
    let r ← literal (w.map byte) rest
    return Scan.upTo (brackets, Skimming.behind) b r
  if b = byte 'n' then word ['u', 'l', 'l']
  else if b = byte 't' then word ['r', 'u', 'e']
  else if b = byte 'f' then word ['a', 'l', 's', 'e']
  else if b = byte '"' then do
    let r ← skimText rest
    return (r.map fun _ => (brackets, .behind)).cons b
  else if b = byte '-' then do
    let r ← skimNumeral true rest
    return (r.map fun _ => (brackets, .behind)).cons b
  else if isDigitByte b then do
    let r ← skimNumeral false (b :: rest)
    return r.map fun _ => (brackets, .behind)
  else if b = byte '[' then .ok (Scan.single (.square :: brackets, .opened) b rest)
  else if b = byte '\x7b' then .ok (Scan.single (.curly :: brackets, .opened) b rest)
  else .error .malformed

/-- What comes next inside a bracket. -/
def Bracket.content : Bracket → Skimming
  | .square => .value
  | .curly => .key

/-- The byte that closes a bracket. -/
def Bracket.close : Bracket → UInt8
  | .square => byte ']'
  | .curly => byte '\x7d'

/-- Pass over a key and its colon. -/
def skimKey (s : Bytes) : Except Flaw (Scan s Unit) :=
  match hs : skipBlanks s with
  | [] => .error .eof
  | b :: rest =>
      if b = byte '"' then do
        let key ← skimText rest
        let mark ← colon key.rest
        return (key.followedBy mark).behind hs
      else .error .malformed

/-- Behind an opening bracket the same bytes may be looked at twice. -/
def Skimming.credit : Skimming → Nat
  | .opened => 1
  | _ => 0

theorem Skimming.credit_le_one (next : Skimming) : next.credit ≤ 1 := by
  cases next <;> decide

theorem Bracket.credit_content (b : Bracket) : b.content.credit = 0 := by
  cases b <;> rfl

/-- Pass over values until every bracket is closed. -/
def skimWith (brackets : List Bracket) (next : Skimming) (s : Bytes) :
    Except Flaw { r : Bytes // r.length ≤ s.length } :=
  match next, brackets with
  | .behind, [] => .ok ⟨s, Nat.le_refl _⟩
  | .behind, top :: outer =>
      match hs : skipBlanks s with
      | [] => .error .eof
      | b :: rest =>
          have hlen := length_lt_of_skipBlanks hs
          if b = top.close then do
            let r ← skimWith outer .behind rest
            return ⟨r.1, by have := r.2; omega⟩
          else if b = byte ',' then do
            let r ← skimWith (top :: outer) top.content rest
            return ⟨r.1, by have := r.2; omega⟩
          else .error .malformed
  | .opened, [] => .error .malformed
  | .opened, top :: outer =>
      match hs : skipBlanks s with
      | [] => .error .eof
      | b :: rest =>
          have hlen := length_lt_of_skipBlanks hs
          if b = top.close then do
            let r ← skimWith outer .behind rest
            return ⟨r.1, by have := r.2; omega⟩
          else skimWith (top :: outer) top.content s
  | .key, brackets => do
      let key ← skimKey s
      have hlen := key.shorter
      let r ← skimWith brackets .value key.rest
      return ⟨r.1, by have := r.2; omega⟩
  | .value, brackets =>
      match hs : skipBlanks s with
      | [] => .error .eof
      | b :: rest => do
          let token ← skimToken brackets b rest
          have hlen : token.rest.length < s.length := by
            have h := skipBlanks_length_le s
            have h' := token.shorter
            rw [hs] at h
            omega
          let r ← skimWith token.value.1 token.value.2 token.rest
          return ⟨r.1, by have := r.2; omega⟩
termination_by 2 * s.length + next.credit
decreasing_by
  · simp only [Skimming.credit]; omega
  · have := top.credit_content; simp only [Skimming.credit] at this ⊢; omega
  · simp only [Skimming.credit]; omega
  · have := top.credit_content; simp only [Skimming.credit] at this ⊢; omega
  · simp only [Skimming.credit]; omega
  · have := token.value.2.credit_le_one; simp only [Skimming.credit] at this ⊢; omega

/-- Pass over one value. -/
def skim (s : Bytes) : Except Flaw { r : Bytes // r.length ≤ s.length } :=
  skimWith [] .value s

end Json
end TxWorkload
