import TxWorkload.Config.Validation
import TxWorkload.Text.Ascii
import TxWorkload.Text.Blank
import TxWorkload.Text.Decimal

/-!
# Environment — settings from named values

Five names are looked up; an absent value leaves the default. A number of seconds that cannot be
read is refused before anything else is looked at, and the finished settings are validated.
-/

namespace TxWorkload
namespace Config

/-- A number of seconds, with blanks around it. -/
def interval (raw : String) : Except Error Duration :=
  match Text.word64? (Text.trimList raw.toList) with
  | some secs => .ok (.ofSecs secs)
  | none => .error (.invalidSetting "TX_INTERVAL" raw)

/-- Only the word `true`, in any case and with blanks around it, means yes. -/
def flag (raw : String) : Bool :=
  Text.sameIgnoringCase (Text.trim raw) "true"

/-- The keys between commas, without blanks around them; empty items are passed over. -/
def keyList (raw : String) : List String :=
  ((Text.split ',' raw).map Text.trim).filter fun key => !key.isEmpty

/-- The keys of a text, if there are any. -/
def keys? (raw : String) : Option (List String) :=
  match keyList raw with
  | [] => none
  | keys => some keys

/-- The settings that named values give. -/
def ofLookup (lookup : String → Option String) : Except Error Config := do
  let defaults : Config := {}
  let txInterval ← match lookup "TX_INTERVAL" with
    | some raw => interval raw
    | none => pure defaults.txInterval
  let config : Config :=
    { rpcUrl := (lookup "RPC_URL").getD defaults.rpcUrl
      sequencerUrl := (lookup "SEQUENCER_URL").getD defaults.sequencerUrl
      txInterval
      burstMode := ((lookup "ENABLE_BURST_MODE").map flag).getD defaults.burstMode
      accountKeys := (lookup "ACCOUNT_KEYS").bind keys? }
  validate config
  return config

end Config
end TxWorkload
