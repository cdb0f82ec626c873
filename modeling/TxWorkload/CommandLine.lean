import TxWorkload.Config.Environment
import TxWorkload.Workload

/-!
# Command line — starting a run, and what is printed

The settings come from the environment. Settings that are not accepted end the program before it
starts, with one line on the error stream. Log lines carry the time and the level, and a signal
that ends the run is written down before the run is cancelled.
-/

namespace TxWorkload
namespace CommandLine

/-- The workload that the environment gives. -/
def prepare (lookup : String → Option String) : Except Error Workload := do
  Workload.make (← Config.ofLookup lookup)

/-! ## Output -/

/-- What is printed about settings that are not accepted. -/
def complaint (cause : Error) : String :=
  s!"Error: {cause.message}\n"

/-- The exit status of a program that did not start. -/
def failureStatus : UInt32 := 1

/-- A printed log line. -/
def line (stamp : String) (level : Routine.Level) (text : String) : String :=
  s!"[{stamp}] {level.name}: {text}"

/-! ## Signals -/

/-- The signals that end a run. -/
inductive Signal
  | interrupt
  | terminate
  deriving DecidableEq, Repr

/-- The name of a signal. -/
def Signal.name : Signal → String
  | .interrupt => "SIGINT"
  | .terminate => "SIGTERM"

/-- What is written down when a signal arrives. -/
def Signal.notes (s : Signal) : List (Routine.Level × String) :=
  [(.info, s!"Received {s.name}"),
    (.info, "Received shutdown signal. Stopping transaction generator...")]

end CommandLine
end TxWorkload
