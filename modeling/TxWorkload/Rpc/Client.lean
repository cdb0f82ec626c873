import TxWorkload.Random.Range
import TxWorkload.Rpc.Attempt
import TxWorkload.Rpc.Request
import TxWorkload.Rpc.Response

/-!
# Client — calls over HTTP

A call draws an identifier, and posts one and the same envelope until an exchange has status 200
and a body that can be read, or no attempt is left. A call that fails for good gives no response.
-/

namespace TxWorkload
namespace Rpc

/-- An envelope and where it is posted. -/
structure Post where
  url : String
  request : Request
  deriving Inhabited

/-- How a post went: it failed on the way, or there is a status and a body. -/
inductive Exchange
  | failed (reason : String)
  | answered (status : Nat) (body : List UInt8)
  deriving DecidableEq, Repr

/-- Clients post envelopes. -/
abbrev posts : Signature where
  Request := Post
  Answer := Exchange
  Mark := Empty

namespace Exchange

/-- The status of a successful exchange. -/
def okStatus : Nat := 200

/-- The response that an exchange with an address brings. -/
def response (url : String) : Exchange → Except Error Response
  | .failed reason => .error (.unreachable reason)
  | .answered status body =>
      if status = okStatus then
        match Response.read body with
        | .ok r => .ok r
        | .error flaw => .error (.malformedResponse flaw.message)
      else .error (.httpStatus status url)

end Exchange

/-- Post an envelope once. -/
def post (url : String) (request : Request) : Routine posts (Except Error Response) := do
  let exchange ← Routine.ask (S := posts) ⟨url, request⟩
  return exchange.response url

/-- Make a call, trying again as the settings say. -/
def call (r : Retry) (c : Call) : Routine posts (Option Response) := do
  let id ← Routine.draw (Random.pick Request.idRange.1 Request.idRange.2)
  let request := Request.envelope c.method c.params id
  let outcome ← withRetry r fun _ => post c.url request
  return outcome.toOption

end Rpc
end TxWorkload
