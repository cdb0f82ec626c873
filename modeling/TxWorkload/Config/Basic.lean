import TxWorkload.Duration
import TxWorkload.Rpc.Retry

/-!
# Configuration — the settings of a run

All tunables with their defaults.
-/

namespace TxWorkload
namespace Config

/-- How calls are made. -/
structure Calls where
  timeout : Duration := .ofSecs 10
  retry : Rpc.Retry := {}
  deriving DecidableEq

/-- When bursts happen, and how they go. -/
structure Bursts where
  every : UInt64 := 20
  probability : Float := 0.05
  least : UInt64 := 5
  most : UInt64 := 15
  pause : Duration := .ofMillis 500

/-- How often the nodes are watched: normally, and while all are down. -/
structure Watch where
  poll : Duration := .ofSecs 60
  recovery : Duration := .ofSecs 30
  deriving DecidableEq

end Config

/-- The settings of a run. -/
structure Config where
  rpcUrl : String := "http://localhost:8545"
  sequencerUrl : String := "http://localhost:8555"
  txInterval : Duration := .ofSecs 3
  burstMode : Bool := true
  accountKeys : Option (List String) := none
  calls : Config.Calls := {}
  bursts : Config.Bursts := {}
  watch : Config.Watch := {}
  startupPoll : Duration := .ofSecs 10
  statsInterval : Duration := .ofSecs 300

end TxWorkload
