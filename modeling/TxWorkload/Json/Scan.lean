import TxWorkload.Binary64.Parts
import TxWorkload.Hex.Digit
import TxWorkload.Json.Value

/-!
# Scan — the tokens of JSON, read from bytes

A scan takes at least one byte off the front of its input, and its result says so; the readers
built from scans recurse on the length of what is left. Scanning tells a premature end of the
input apart from a byte that cannot stand where it does.
-/

namespace TxWorkload
namespace Json

/-- The bytes of a text still to be read. -/
abbrev Bytes := List UInt8

/-- Why a text is not what it should be: it ends early, it is no JSON, or it is JSON of another
shape. -/
inductive Flaw
  | eof
  | malformed
  | shape
  deriving DecidableEq, Repr

/-- The wording of a flaw. -/
def Flaw.message : Flaw → String
  | .eof => "unexpected end of input"
  | .malformed => "malformed text"
  | .shape => "unexpected shape"

/-- What was read from `input`, and what is left of it. -/
structure Scan (input : Bytes) (α : Type) where
  value : α
  rest : Bytes
  shorter : rest.length < input.length

namespace Scan

variable {α β : Type} {s : Bytes}

/-- The same scan with another value. -/
def map (f : α → β) (r : Scan s α) : Scan s β :=
  ⟨f r.value, r.rest, r.shorter⟩

/-- A scan of a single byte. -/
def single (a : α) (b : UInt8) (rest : Bytes) : Scan (b :: rest) α :=
  ⟨a, rest, Nat.lt_succ_self rest.length⟩

/-- A byte before what was scanned. -/
def cons (b : UInt8) (r : Scan s α) : Scan (b :: s) α :=
  ⟨r.value, r.rest, Nat.lt_succ_of_lt r.shorter⟩

/-- One scan behind another: the value of the second. -/
def followedBy (q : Scan s α) (r : Scan q.rest β) : Scan s β :=
  ⟨r.value, r.rest, Nat.lt_trans r.shorter q.shorter⟩

/-- A scan, and then perhaps more before what is left. -/
def extend (q : Scan s α) (r : { r : Bytes // r.length ≤ q.rest.length }) : Scan s α :=
  ⟨q.value, r.1, Nat.lt_of_le_of_lt r.2 q.shorter⟩

/-- A byte and perhaps more before what is left. -/
def upTo (a : α) (b : UInt8) (r : { r : Bytes // r.length ≤ s.length }) : Scan (b :: s) α :=
  ⟨a, r.1, Nat.lt_succ_of_le r.2⟩

end Scan

/-! ## Blanks and literals -/

/-- Space, tab, line feed and carriage return. -/
def isBlankByte (b : UInt8) : Bool :=
  b == 0x20 || b == 0x09 || b == 0x0a || b == 0x0d

/-- Drop blanks at the front. -/
def skipBlanks (s : Bytes) : Bytes :=
  s.dropWhile isBlankByte

theorem skipBlanks_length_le (s : Bytes) : (skipBlanks s).length ≤ s.length :=
  (List.dropWhile_suffix isBlankByte).length_le

theorem length_lt_of_skipBlanks {s rest : Bytes} {b : UInt8} (h : skipBlanks s = b :: rest) :
    rest.length < s.length := by
  have h' := skipBlanks_length_le s
  simp only [h, List.length_cons] at h'
  omega

/-- Blanks before what was scanned. -/
def Scan.skipped {α : Type} {s t : Bytes} (h : skipBlanks s = t) (r : Scan t α) : Scan s α :=
  ⟨r.value, r.rest, Nat.lt_of_lt_of_le r.shorter (h ▸ skipBlanks_length_le s)⟩

/-- Blanks and a byte before what was scanned. -/
def Scan.behind {α : Type} {s rest : Bytes} {b : UInt8} (h : skipBlanks s = b :: rest)
    (r : Scan rest α) : Scan s α :=
  (r.cons b).skipped h

/-- The byte of an ASCII character. -/
def byte (c : Char) : UInt8 := UInt8.ofNat c.toNat

/-- Whether a byte is an ASCII decimal digit. -/
def isDigitByte (b : UInt8) : Bool :=
  byte '0' ≤ b && b ≤ byte '9'

/-- Take a fixed run of bytes off the front. -/
def literal : (word : Bytes) → (s : Bytes) → Except Flaw { r : Bytes // r.length ≤ s.length }
  | [], s => .ok ⟨s, Nat.le_refl _⟩
  | _ :: _, [] => .error .eof
  | w :: word, b :: s =>
      if w = b then
        match literal word s with
        | .ok r => .ok ⟨r.1, Nat.le_succ_of_le r.2⟩
        | .error f => .error f
      else .error .malformed

/-! ## Texts -/

/-- The number of four hexadecimal digits. -/
def hexFour (s : Bytes) : Except Flaw (Scan s Nat) :=
  match s with
  | a :: b :: c :: d :: rest =>
      match Hex.digits? 0 ([a, b, c, d].map fun x => Char.ofNat x.toNat) with
      | some n => .ok ⟨n, rest, by simp; omega⟩
      | none => .error .malformed
  | _ => .error .eof

/-- The bytes of a code point. -/
def codePointBytes (n : Nat) : Bytes :=
  String.utf8EncodeChar (Char.ofNat n)

/-- The rest of a `\u` escape. A leading surrogate must be followed by the escape of a trailing
one, and a trailing surrogate does not come first. -/
def unicodeEscape (s : Bytes) : Except Flaw (Scan s Bytes) := do
  let high ← hexFour s
  if 0xdc00 ≤ high.value ∧ high.value ≤ 0xdfff then
    .error .malformed
  else if high.value < 0xd800 ∨ 0xdbff < high.value then
    .ok (high.map codePointBytes)
  else
    match hr : high.rest with
    | [] => .error .eof
    | [a] => if a = byte '\\' then .error .eof else .error .malformed
    | a :: b :: rest =>
        if a = byte '\\' ∧ b = byte 'u' then do
          let low ← hexFour rest
          if 0xdc00 ≤ low.value ∧ low.value ≤ 0xdfff then
            let n := 0x10000 + (high.value - 0xd800) * 0x400 + (low.value - 0xdc00)
            .ok ⟨codePointBytes n, low.rest, by
              have h1 := high.shorter
              have h2 := low.shorter
              simp only [hr, List.length_cons] at h1
              omega⟩
          else .error .malformed
        else .error .malformed

/-- The byte that a one-letter escape stands for. -/
def simpleEscape? (b : UInt8) : Option UInt8 :=
  if b = byte '"' ∨ b = byte '\\' ∨ b = byte '/' then some b
  else if b = byte 'b' then some 8
  else if b = byte 'f' then some 12
  else if b = byte 'n' then some 10
  else if b = byte 'r' then some 13
  else if b = byte 't' then some 9
  else none

/-- An escape behind its backslash. -/
def escape (s : Bytes) : Except Flaw (Scan s Bytes) :=
  match s with
  | [] => .error .eof
  | b :: rest =>
      match simpleEscape? b with
      | some x => .ok (Scan.single [x] b rest)
      | none =>
          if b = byte 'u' then do
            let r ← unicodeEscape rest
            return r.cons b
          else .error .malformed

/-- The bytes of a text up to its closing quote; `done` holds those already read, last first. -/
def textBytes (done : Bytes) (s : Bytes) : Except Flaw (Scan s Bytes) :=
  match s with
  | [] => .error .eof
  | b :: rest =>
      if b = byte '"' then .ok (Scan.single done.reverse b rest)
      else if b = byte '\\' then do
        let e ← escape rest
        have := e.shorter
        let r ← textBytes (e.value.reverse ++ done) e.rest
        return (e.followedBy r).cons b
      else if b < 0x20 then .error .malformed
      else do
        let r ← textBytes (b :: done) rest
        return r.cons b
termination_by s.length
decreasing_by all_goals simp only [List.length_cons]; omega

/-- A text behind its opening quote: its bytes must be UTF-8. -/
def quotedText (s : Bytes) : Except Flaw (Scan s String) := do
  let r ← textBytes [] s
  match String.fromUTF8? ⟨r.value.toArray⟩ with
  | some t => return r.map fun _ => t
  | none => .error .malformed

/-! ## Keys -/

/-- A quoted key. -/
def keyText (s : Bytes) : Except Flaw (Scan s String) :=
  match hs : skipBlanks s with
  | [] => .error .eof
  | b :: rest =>
      if b = byte '"' then do
        let key ← quotedText rest
        return key.behind hs
      else .error .malformed

/-- The colon behind a key. -/
def colon (s : Bytes) : Except Flaw (Scan s Unit) :=
  match hs : skipBlanks s with
  | [] => .error .eof
  | b :: rest =>
      if b = byte ':' then
        .ok ⟨(), rest, length_lt_of_skipBlanks hs⟩
      else .error .malformed

/-! ## Numbers -/

/-- The digits at the front, as values. -/
def digitValues (s : Bytes) : List Nat :=
  (s.takeWhile isDigitByte).map fun b => b.toNat - 48

/-- What stands behind the digits at the front. -/
def afterDigits (s : Bytes) : Bytes :=
  s.dropWhile isDigitByte

theorem afterDigits_length_le (s : Bytes) : (afterDigits s).length ≤ s.length :=
  (List.dropWhile_suffix isDigitByte).length_le

/-- The parts of a numeral: sign, digits before and behind the point, and the exponent. An absent
part is `none`. -/
structure Numeral where
  negative : Bool
  whole : List Nat
  fraction : Option (List Nat)
  exponent : Option Int

/-- The exponent behind its letter. -/
def exponentPart (s : Bytes) : Except Flaw (Scan s Int) :=
  let signed : Bool × { r : Bytes // r.length ≤ s.length } :=
    match s with
    | b :: rest =>
        if b = byte '+' then (false, ⟨rest, by simp⟩)
        else if b = byte '-' then (true, ⟨rest, by simp⟩)
        else (false, ⟨b :: rest, Nat.le_refl _⟩)
    | [] => (false, ⟨[], Nat.le_refl _⟩)
  match hs : signed.2.1 with
  | [] => .error .eof
  | b :: rest =>
      if isDigitByte b then
        let n : Nat := (digitValues (b :: rest)).foldl (fun n d => n * 10 + d) 0
        .ok ⟨if signed.1 then -(n : Int) else n, afterDigits rest, by
          have h1 := signed.2.2
          have h2 := afterDigits_length_le rest
          simp only [hs, List.length_cons] at h1
          omega⟩
      else .error .malformed

/-- An optional exponent. -/
def exponentPart? (s : Bytes) :
    Except Flaw (Option Int × { r : Bytes // r.length ≤ s.length }) :=
  match s with
  | [] => .ok (none, ⟨[], Nat.le_refl _⟩)
  | b :: rest =>
      if b = byte 'e' ∨ b = byte 'E' then do
        let r ← exponentPart rest
        return (some r.value, ⟨r.rest, by have := r.shorter; simp; omega⟩)
      else .ok (none, ⟨b :: rest, Nat.le_refl _⟩)

/-- An optional fraction: a point and at least one digit. -/
def fractionPart? (s : Bytes) :
    Except Flaw (Option (List Nat) × { r : Bytes // r.length ≤ s.length }) :=
  match s with
  | [] => .ok (none, ⟨[], Nat.le_refl _⟩)
  | b :: rest =>
      if b = byte '.' then
        match digitValues rest, afterDigits rest, afterDigits_length_le rest with
        | [], [], _ => .error .eof
        | [], _ :: _, _ => .error .malformed
        | ds, r, h => .ok (some ds, ⟨r, Nat.le_succ_of_le h⟩)
      else .ok (none, ⟨b :: rest, Nat.le_refl _⟩)

/-- A numeral behind its sign: no leading zero, then the optional parts. -/
def numeral (negative : Bool) (s : Bytes) : Except Flaw (Scan s Numeral) :=
  match s with
  | [] => .error .eof
  | b :: rest =>
      if !isDigitByte b then .error .malformed
      else if b = byte '0' ∧ (rest.head?.map isDigitByte) = some true then .error .malformed
      else do
        let (fraction, r) ← fractionPart? (afterDigits rest)
        let (exponent, r') ← exponentPart? r.1
        return ⟨⟨negative, digitValues (b :: rest), fraction, exponent⟩, r'.1, by
          have h1 := afterDigits_length_le rest
          have h2 := r.2
          have h3 := r'.2
          simp only [List.length_cons]
          omega⟩

end Json
end TxWorkload
