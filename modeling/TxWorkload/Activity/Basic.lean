import TxWorkload.Error
import TxWorkload.Routine.Cancellation
import TxWorkload.Rpc.Request
import TxWorkload.Rpc.Response
import TxWorkload.Stats.Summary

/-!
# Activities — what the routines of the program have in common

Activities call endpoints, and a call that fails gives no response. They note by milestones what
they have done.
-/

namespace TxWorkload

/-- A node to which calls are made. -/
structure Endpoint where
  name : String
  url : String
  deriving DecidableEq, Repr, Inhabited

namespace Activity

/-- The state of the two nodes after one poll; the height is zero if it is not known. -/
structure Report where
  validatorUp : Bool := false
  sequencerUp : Bool := false
  height : UInt64 := 0
  deriving DecidableEq, Repr

namespace Report

/-- Whether some node answered. -/
def anyUp (r : Report) : Bool := r.validatorUp || r.sequencerUp

/-- Whether no node answered. -/
def allDown (r : Report) : Bool := !r.anyUp

end Report

/-- What activities note: a submission has begun or ended, a poll has ended, the dice for a burst
were cast, a burst has ended, a pause was drawn. -/
inductive Milestone
  | submitting
  | submitted (hash : Option String)
  | polled (outcome : Except Error Report)
  | rolled (size : Option UInt64)
  | burstEnded (sent : Nat)
  | paced (pause : Duration)

end Activity

/-- Activities make calls, which may go without a response, and note milestones. -/
abbrev activities : Signature where
  Request := Rpc.Call
  Answer := Option Rpc.Response
  Mark := Activity.Milestone

/-- A routine that makes calls. -/
abbrev Activity := Routine activities

namespace Activity

open Routine (access log)

/-! ## Statistics -/

/-- Add one to a counter. -/
def count (c : Stats.Counter) : Activity Unit := do
  let _ ← access (.add c 1)

/-- Raise the watermark to a height and count the blocks by which it grew; tells their number. -/
def observe (height : UInt64) : Activity UInt64 := do
  let before ← access (.raise .lastBlock height)
  if before < height then
    let _ ← access (.add .blocksObserved (height - before))
    return height - before
  else return 0

/-- The counters and the uptime, looked at one by one. -/
def snapshot : Activity Stats.Snapshot := do
  let total ← access (.load .total)
  let successful ← access (.load .successful)
  let failed ← access (.load .failed)
  let lastBlock ← access (.load .lastBlock)
  let blocksObserved ← access (.load .blocksObserved)
  let uptime ← Routine.act .uptime
  return ⟨{ total, successful, failed, lastBlock, blocksObserved }, uptime⟩

/-- Write the statistics line. -/
def printStats : Activity Unit := do
  let s ← snapshot
  log .info s!"📊 {s.summary}"

end Activity
end TxWorkload
