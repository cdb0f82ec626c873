import TxWorkload.Binary64.Shortest
import TxWorkload.Config.Basic
import TxWorkload.Error

/-!
# Validation — which settings are accepted

The first flaw found decides: the two addresses, the interval between transactions, the attempts of
a call, and the settings of bursts.
-/

namespace TxWorkload
namespace Config

/-- The longest interval between transactions: one day. -/
def longestInterval : Duration := .ofSecs 86400

/-- Whether a text can be the address of an endpoint. -/
def isUrl (url : String) : Bool :=
  "http://".toList.isPrefixOf url.toList || "https://".toList.isPrefixOf url.toList

/-- What is wrong with settings. -/
def flaw? (c : Config) : Option Error :=
  if !isUrl c.rpcUrl then some (.invalidSetting "RPC_URL" c.rpcUrl)
  else if !isUrl c.sequencerUrl then some (.invalidSetting "SEQUENCER_URL" c.sequencerUrl)
  else if longestInterval < c.txInterval then
    some (.invalidSetting "TX_INTERVAL" (toString c.txInterval.secs))
  else if c.calls.retry.maxAttempts = 0 then
    some (.invalidConfiguration "rpc.max_attempts must be at least 1")
  else if c.bursts.most < c.bursts.least then
    some (.invalidConfiguration s!"burst size range {c.bursts.least}..={c.bursts.most} is empty")
  else if !(0.0 ≤ c.bursts.probability && c.bursts.probability ≤ 1.0) then
    some (.invalidConfiguration
      s!"burst probability {Binary64.plain c.bursts.probability} outside [0, 1]")
  else if c.bursts.every = 0 then
    some (.invalidConfiguration "burst.every_n_transactions must be at least 1")
  else none

/-- Refuse settings that are not accepted. -/
def validate (c : Config) : Except Error Unit :=
  match c.flaw? with
  | some cause => .error cause
  | none => .ok ()

end Config
end TxWorkload
