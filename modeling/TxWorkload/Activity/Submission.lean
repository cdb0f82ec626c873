import TxWorkload.Activity.Basic
import TxWorkload.Hex.Short
import TxWorkload.Text.Title
import TxWorkload.Transaction.Basic

/-!
# Submission — offering a transaction to endpoints in order

The first endpoint that answers with a text as its result has accepted the transaction. An endpoint
that does not answer, or answers anything else, is passed over. Every submission counts once as
made, and once as successful or failed; a cancellation makes it fail.
-/

namespace TxWorkload
namespace Activity

open Routine (ask log mark untilCancelled)

/-- The log line of an accepted transaction. -/
def acceptance (endpoint : Endpoint) (t : Transaction) (label hash : String) : String :=
  s!"✅ {Text.title label} tx sent via {endpoint.name}: {Hex.short t.sender}→" ++
    s!"{Hex.short t.recipient} ({t.value} wei) Hash: {Hex.short hash}"

/-- The log line of a response without hash. -/
def refusal (endpoint : Endpoint) (r : Rpc.Response) : String :=
  match r.error with
  | some error => s!"❌ Transaction error on {endpoint.name}: {error.render}"
  | none => s!"❌ Unexpected response from {endpoint.name}: no transaction hash"

/-- The call that hands a transaction to an endpoint. -/
def submissionCall (t : Transaction) (endpoint : Endpoint) : Rpc.Call :=
  ⟨endpoint.url, Rpc.sendTransaction, .array [t.encode]⟩

/-- Offer a transaction to endpoints until one of them accepts it. -/
def offer (t : Transaction) (label : String) : List Endpoint → Activity (Option String)
  | [] => do
      count .failed
      log .error "❌ Transaction failed on all endpoints"
      return none
  | endpoint :: rest => do
      match ← untilCancelled (ask (submissionCall t endpoint)) with
      | none =>
          count .failed
          log .warn s!"❌ Transaction to {endpoint.name} abandoned on shutdown"
          return none
      | some none => offer t label rest
      | some (some response) =>
          match response.resultText? with
          | some hash =>
              count .successful
              log .info (acceptance endpoint t label hash)
              return some hash
          | none =>
              log .warn (refusal endpoint response)
              offer t label rest

/-- Submit a transaction; tells its hash if an endpoint accepted it. -/
def submit (endpoints : List Endpoint) (t : Transaction) (label : String) :
    Activity (Option String) := do
  mark .submitting
  count .total
  let hash ← offer t label endpoints
  mark (.submitted hash)
  return hash

end Activity
end TxWorkload
