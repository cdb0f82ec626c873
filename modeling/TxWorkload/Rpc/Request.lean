import TxWorkload.Json.Printer

/-!
# Request — the envelope of a call

A call names an endpoint, a method and its parameters. On the wire it becomes an envelope with the
protocol version and an identifier; missing parameters are sent as an empty list.
-/

namespace TxWorkload
namespace Rpc

/-! ## Calls -/

/-- A call to an endpoint, as the activities of the program make it. -/
structure Call where
  url : String
  method : String
  params : Json := .null
  deriving Inhabited

/-- Ask a node for its name and version. -/
def clientVersion : String := "web3_clientVersion"

/-- Ask a node for its height. -/
def blockNumber : String := "eth_blockNumber"

/-- Hand a transaction to a node. -/
def sendTransaction : String := "eth_sendTransaction"

/-! ## Envelopes -/

/-- What is sent to an endpoint. -/
structure Request where
  method : String
  params : Json
  id : UInt64
  deriving Inhabited

namespace Request

/-- The protocol version of every envelope. -/
def version : String := "2.0"

/-- The least and the greatest identifier. -/
def idRange : UInt64 × UInt64 := (1, 1000)

/-- The envelope of a method and its parameters; `null` becomes an empty list. -/
def envelope (method : String) (params : Json) (id : UInt64) : Request :=
  let params := match params with
    | .null => .array []
    | params => params
  ⟨method, params, id⟩

/-- The members of an envelope, in the order in which they are written. -/
def members (r : Request) : List (String × Json) :=
  [("jsonrpc", .text version), ("method", .text r.method), ("params", r.params),
    ("id", .integer r.id.toNat)]

/-- The text that is sent. -/
def text (r : Request) : String :=
  Json.render (.object r.members)

end Request
end Rpc
end TxWorkload
