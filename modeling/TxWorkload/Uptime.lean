import TxWorkload.Text.Decimal

/-!
# Uptime — signed spans and their clock text

An uptime is a signed number of nanoseconds: it is negative while the start lies in the future.
Whole units are cut off toward zero. The text is `HH:MM:SS`, with the number of days in front once
there is one; a negative uptime reads as zero.
-/

namespace TxWorkload

/-- A signed span in nanoseconds. -/
structure Uptime where
  nanos : Int
  deriving DecidableEq, Repr

namespace Uptime

/-- Whole seconds, cut off toward zero. -/
def wholeSeconds (u : Uptime) : Int :=
  u.nanos.tdiv 1000000000

/-- Whole milliseconds, cut off toward zero. -/
def wholeMillis (u : Uptime) : Int :=
  u.nanos.tdiv 1000000

/-- The clock text of a number of seconds. -/
def clock (total : Nat) : String :=
  let days := total / 86400
  let time :=
    Text.twoDigits (total % 86400 / 3600) ++ ":" ++ Text.twoDigits (total % 3600 / 60) ++ ":" ++
      Text.twoDigits (total % 60)
  if 0 < days then toString days ++ "d " ++ time else time

/-- The clock text of an uptime. -/
def text (u : Uptime) : String :=
  clock u.wholeSeconds.toNat

end Uptime
end TxWorkload
