import TxWorkload.Hex.Quantity
import TxWorkload.Json.Reader
import TxWorkload.Json.Skim

/-!
# Response — what an endpoint answers

A response has four optional fields. It is read from an object, in which unknown keys are passed
over and `null` counts as absent, or from an array that lists the fields in order. Whether a
response reports success is for its reader to decide: it may carry a result and an error at once.
-/

namespace TxWorkload
namespace Rpc

/-- The answer to a call. -/
structure Response where
  version : Option String := none
  id : Option Json := none
  result : Option Json := none
  error : Option Json := none
  deriving Inhabited

namespace Response

/-! ## Views -/

/-- The result, if it is a text: a hash, a quantity or a version. -/
def resultText? (r : Response) : Option String :=
  r.result.bind Json.text?

/-- The result, if it is the text of a quantity. -/
def resultQuantity? (r : Response) : Option UInt64 :=
  r.resultText?.bind Hex.quantity?

/-- Whether the response carries an error. -/
def isError (r : Response) : Bool :=
  r.error.isSome

/-! ## Fields -/

/-- The fields, in the order in which an array lists them. -/
inductive Field
  | version
  | id
  | result
  | error
  deriving DecidableEq, Repr

/-- All fields in order. -/
def Field.all : List Field := [.version, .id, .result, .error]

/-- The key of a field. -/
def Field.key : Field → String
  | .version => "jsonrpc"
  | .id => "id"
  | .result => "result"
  | .error => "error"

/-- The field with a given key. -/
def Field.ofKey? (key : String) : Option Field :=
  Field.all.find? fun f => f.key = key

/-! ## Reading -/

open Json (Bytes Flaw Scan byte skipBlanks length_lt_of_skipBlanks)

/-- A value in place of the object, array or text that was expected: it is read to its end unless
it is an array or an object. -/
def misplaced {α : Type} (b : UInt8) (rest : Bytes) : Except Flaw α :=
  if b = byte '[' ∨ b = byte '\x7b' then .error .shape
  else do
    let _ ← Json.scanScalar b rest
    .error .shape

/-- A text or `null`. -/
def scanVersion (s : Bytes) : Except Flaw (Scan s (Option String)) :=
  match hs : skipBlanks s with
  | [] => .error .eof
  | b :: rest =>
      if b = byte 'n' then do
        let r ← Json.literal (['u', 'l', 'l'].map byte) rest
        return (Scan.upTo none b r).skipped hs
      else if b = byte '"' then do
        let r ← Json.quotedText rest
        return (r.map some).behind hs
      else misplaced b rest

/-- Any value; `null` stands for none. -/
def scanOptional (depth : Nat) (s : Bytes) : Except Flaw (Scan s (Option Json)) := do
  let r ← Json.scanValue depth s
  return r.map fun v =>
    match v with
    | .null => none
    | v => some v

/-- Read the value of a field into a response. -/
def scanField (depth : Nat) (r : Response) (field : Field) (s : Bytes) :
    Except Flaw (Scan s Response) :=
  match field with
  | .version => return (← scanVersion s).map fun v => { r with version := v }
  | .id => return (← scanOptional depth s).map fun v => { r with id := v }
  | .result => return (← scanOptional depth s).map fun v => { r with result := v }
  | .error => return (← scanOptional depth s).map fun v => { r with error := v }

/-- The members of an object up to its closing brace, read into a response; `seen` are the fields
that were already met. -/
def scanMembers (depth : Nat) (seen : List Field) (first : Bool) (r : Response) (s : Bytes) :
    Except Flaw (Scan s Response) :=
  match hs : skipBlanks s with
  | [] => .error .eof
  | b :: rest =>
      have hlen := length_lt_of_skipBlanks hs
      if b = byte '\x7d' then .ok ⟨r, rest, hlen⟩
      else if first ∨ b = byte ',' then do
        let key ← if first then Json.keyText s
          else (Json.keyText rest).map (·.behind hs)
        have hkey := key.shorter
        match Field.ofKey? key.value with
        | none =>
            let mark ← Json.colon key.rest
            let value ← Json.skim mark.rest
            have : value.1.length < s.length :=
              Nat.lt_of_le_of_lt value.2 (Nat.lt_trans mark.shorter hkey)
            let r' ← scanMembers depth seen false r value.1
            return (key.followedBy (mark.extend value)).followedBy r'
        | some field =>
            if field ∈ seen then .error .shape
            else
              let mark ← Json.colon key.rest
              let value ← scanField depth r field mark.rest
              have : value.rest.length < s.length :=
                Nat.lt_trans value.shorter (Nat.lt_trans mark.shorter hkey)
              let r' ← scanMembers depth (field :: seen) false value.value value.rest
              return key.followedBy (mark.followedBy (value.followedBy r'))
      else .error .malformed
termination_by s.length

/-- The items of an array up to its closing bracket, read into the fields in order. -/
def scanItems (depth : Nat) (first : Bool) (r : Response) (fields : List Field) (s : Bytes) :
    Except Flaw (Scan s Response) :=
  match hs : skipBlanks s with
  | [] => .error .eof
  | b :: rest =>
      have hlen := length_lt_of_skipBlanks hs
      if b = byte ']' then .ok ⟨r, rest, hlen⟩
      else
        match fields with
        | [] => .error .malformed
        | field :: fields =>
            if first then do
              let value ← scanField depth r field s
              let r' ← scanItems depth false value.value fields value.rest
              return value.followedBy r'
            else if b = byte ',' then do
              let value ← scanField depth r field rest
              let r' ← scanItems depth false value.value fields value.rest
              return (value.followedBy r').behind hs
            else .error .malformed

/-- Read a response from the bytes of a text. -/
def read (s : Bytes) : Except Flaw Response :=
  match skipBlanks s with
  | [] => .error .eof
  | b :: rest =>
      if b = byte '\x7b' then do
        let depth ← Json.nest Json.nestingLimit
        let r ← scanMembers depth [] true {} rest
        Json.atEnd r.rest
        return r.value
      else if b = byte '[' then do
        let depth ← Json.nest Json.nestingLimit
        let r ← scanItems depth true {} Field.all rest
        Json.atEnd r.rest
        return r.value
      else misplaced b rest

end Response
end Rpc
end TxWorkload
