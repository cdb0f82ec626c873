import TxWorkload.Hex.Bytes
import TxWorkload.Hex.Quantity
import TxWorkload.Json.Printer

/-!
# Transactions — their kinds and their encoding

A transaction is encoded as an object of six texts: the two addresses as they are, three
quantities, and the payload as hexadecimal data.
-/

namespace TxWorkload

/-! ## Kinds -/

/-- What a transaction pretends to be. -/
inductive Kind
  | transfer
  | largeTransfer
  | microTransfer
  | contractCall
  deriving DecidableEq, Repr, Inhabited

namespace Kind

/-- All kinds. -/
def all : List Kind := [.transfer, .largeTransfer, .microTransfer, .contractCall]

/-- The name of a kind in log lines. -/
def name : Kind → String
  | .transfer => "transfer"
  | .largeTransfer => "large_transfer"
  | .microTransfer => "micro_transfer"
  | .contractCall => "contract_call"

/-- Whether a transaction of this kind carries a payload. -/
def isContractCall (k : Kind) : Bool :=
  k == .contractCall

/-- The name of a kind in the log lines of a burst. -/
def burstName (k : Kind) : String :=
  "burst_" ++ k.name

end Kind

/-! ## Transactions -/

/-- A transaction as it is handed to an endpoint. -/
structure Transaction where
  sender : String
  recipient : String
  value : UInt64
  gas : UInt64
  gasPrice : UInt64
  payload : List UInt8
  deriving DecidableEq, Repr, Inhabited

namespace Transaction

/-- The members of the encoded transaction, in the order of the fields. -/
def members (t : Transaction) : List (String × Json) :=
  [("from", .text t.sender), ("to", .text t.recipient), ("value", .text (Hex.quantity t.value)),
    ("gas", .text (Hex.quantity t.gas)), ("gasPrice", .text (Hex.quantity t.gasPrice)),
    ("data", .text (Hex.data t.payload))]

/-- The encoded transaction. -/
def encode (t : Transaction) : Json :=
  Json.ofMembers t.members

/-- The text of a transaction, with its members in the order of the fields. -/
def text (t : Transaction) : String :=
  Json.render (.object t.members)

end Transaction
end TxWorkload
