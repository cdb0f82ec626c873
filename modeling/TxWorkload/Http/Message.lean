import TxWorkload.Hex.Digit
import TxWorkload.Http.Url
import TxWorkload.Text.Ascii

/-!
# Message — posting a text over HTTP

A post is one text with a length. A reply is read as far as it has come: its body ends where the
length in its head says, or with the last chunk, or with the connection.
-/

namespace TxWorkload
namespace Http

/-! ## Posts -/

/-- The end of a line. -/
def lineEnd : String := "\r\n"

/-- The text that posts a JSON body. -/
def postText (url : Url) (body : String) : String :=
  let lines :=
    [s!"POST {url.target} HTTP/1.1",
     s!"Host: {url.host}:{url.service}",
     "Content-Type: application/json",
     "Accept: */*",
     s!"Content-Length: {body.utf8ByteSize}",
     "Connection: close"]
  String.join (lines.map (· ++ lineEnd)) ++ lineEnd ++ body

/-! ## Replies -/

/-- What has come of a reply. -/
inductive Reading
  | unfinished
  | broken
  | finished (status : Nat) (body : List UInt8)
  deriving DecidableEq, Repr

/-- Cut bytes at the first end of a line. -/
def cutLine : List UInt8 → Option (List UInt8 × List UInt8)
  | 13 :: 10 :: rest => some ([], rest)
  | b :: rest => (cutLine rest).map fun (line, rest) => (b :: line, rest)
  | [] => none

theorem length_lt_of_cutLine {s line rest : List UInt8} (h : cutLine s = some (line, rest)) :
    rest.length < s.length := by
  fun_induction cutLine s generalizing line rest with
  | case1 r =>
      simp only [Option.some.injEq, Prod.mk.injEq] at h
      obtain ⟨-, rfl⟩ := h
      simp only [List.length_cons]
      omega
  | case2 b r _ ih =>
      simp only [Option.map_eq_some_iff, Prod.mk.injEq] at h
      obtain ⟨⟨line', rest'⟩, hr, -, rfl⟩ := h
      have := ih hr
      simp only [List.length_cons]
      omega
  | case3 => simp at h

/-- The text of bytes, one character each. -/
def latin (bytes : List UInt8) : String :=
  String.ofList (bytes.map fun b => Char.ofNat b.toNat)

/-- The lines of a head up to the empty one, and what stands behind it. -/
def headLines (s : List UInt8) : Option (List String × List UInt8) :=
  match h : cutLine s with
  | none => none
  | some ([], rest) => some ([], rest)
  | some (line, rest) =>
      have := length_lt_of_cutLine h
      (headLines rest).map fun (lines, body) => (latin line :: lines, body)
termination_by s.length

/-- The status in the first line of a head. -/
def statusOf? (line : String) : Option Nat :=
  match Text.splitList ' ' line.toList with
  | version :: status :: _ =>
      if "HTTP/".toList.isPrefixOf version then Text.unsignedNumeral? status else none
  | _ => none

/-- The value of a header. -/
def header? (name : String) (lines : List String) : Option String :=
  lines.findSome? fun line =>
    match Text.splitList ':' line.toList with
    | key :: value =>
        if Text.sameIgnoringCase (String.ofList key) name then
          some (Text.trim (String.ofList (List.intercalate [':'] value)))
        else none
    | [] => none

/-- The body in chunks: each has its length in front, and an empty one ends it. -/
def chunks (status : Nat) (body s : List UInt8) : Reading :=
  match h : cutLine s with
  | none => .unfinished
  | some (line, rest) =>
      have := length_lt_of_cutLine h
      let digits := (latin line).toList.takeWhile (fun c => c != ';' && c != ' ')
      match if digits.isEmpty then none else Hex.digits? 0 digits with
      | none => .broken
      | some 0 => .finished status body
      | some n =>
          if rest.length < n + 2 then .unfinished
          else chunks status (body ++ rest.take n) (rest.drop (n + 2))
termination_by s.length
decreasing_by simp only [List.length_drop]; omega

/-- The body that follows given headers. -/
def readBody (closed : Bool) (status : Nat) (headers : List String) (body : List UInt8) :
    Reading :=
  if ((header? "Transfer-Encoding" headers).map Text.lowerAscii) = some "chunked" then
    chunks status [] body
  else
    match header? "Content-Length" headers with
    | some length =>
        match Text.unsignedNumeral? length.toList with
        | some n => if n ≤ body.length then .finished status (body.take n) else .unfinished
        | none => .broken
    | none => if closed then .finished status body else .unfinished

/-- Read a reply from the bytes that have come; `closed` tells that there will be no more. -/
def readReply (closed : Bool) (s : List UInt8) : Reading :=
  let reading : Reading :=
    match headLines s with
    | none => .unfinished
    | some ([], _) => .broken
    | some (first :: headers, body) =>
        match statusOf? first with
        | none => .broken
        | some status => readBody closed status headers body
  if closed ∧ reading = .unfinished then .broken else reading

end Http
end TxWorkload
