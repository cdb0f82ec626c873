import TxWorkload.CommandLine
import TxWorkload.Live

/-!
# Main — the program

Reads its settings from the environment and runs until it is interrupted or terminated.
-/

open TxWorkload

/-- The values of the environment under the names that matter. -/
def readEnvironment : IO (String → Option String) := do
  let names := ["RPC_URL", "SEQUENCER_URL", "TX_INTERVAL", "ENABLE_BURST_MODE", "ACCOUNT_KEYS"]
  let values ← names.mapM fun name => return (name, ← IO.getEnv name)
  return fun name => (values.find? fun v => v.1 = name).bind Prod.snd

/-- Start the workload, or say why it cannot be started. -/
def main : IO UInt32 := do
  match CommandLine.prepare (← readEnvironment) with
  | .ok workload =>
      Live.start workload
      return 0
  | .error cause =>
      IO.eprint (CommandLine.complaint cause)
      return CommandLine.failureStatus
