import TxWorkload.Binary64.Fixed
import TxWorkload.Stats.Counters
import TxWorkload.Uptime

/-!
# Summary — the statistics line

A snapshot is the counters at one moment and the uptime. Its text gives the counts, the success
rate in percent, the average number of transactions a second and the uptime.
-/

namespace TxWorkload
namespace Stats

/-- The counters at one moment, and how long the program has been up. -/
structure Snapshot where
  counters : Counters
  uptime : Uptime
  deriving DecidableEq, Repr

namespace Snapshot

/-- Accepted transactions in percent of all; without any, all counts as one. -/
def successRate (s : Snapshot) : Float :=
  let total := if s.counters.total = 0 then 1 else s.counters.total
  s.counters.successful.toFloat / total.toFloat * 100.0

/-- Transactions a second, measured in whole milliseconds; zero before the first of them. -/
def perSecond (s : Snapshot) : Float :=
  let secs := Float.ofInt s.uptime.wholeMillis / 1000.0
  if secs > 0.0 then s.counters.total.toFloat / secs else 0.0

/-- The statistics line. -/
def summary (s : Snapshot) : String :=
  let c := s.counters
  s!"Stats: {c.total} total txs, {c.successful} successful " ++
    s!"({Binary64.fixed 1 s.successRate}%), {c.failed} failed, " ++
    s!"{c.blocksObserved} blocks observed, {Binary64.fixed 2 s.perSecond} tx/s, " ++
    s!"Uptime: {s.uptime.text}"

end Snapshot
end Stats
end TxWorkload
