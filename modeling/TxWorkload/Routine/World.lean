import TxWorkload.Routine.Basic

/-!
# World — what routines act on, and the time that passes for them

Time is virtual: it stands still while anything can go on, and then jumps to the next moment at
which a wait ends or the run is cancelled. A world holds the shared counters, the words that are
left and a journal of everything that was sent, written, counted and noted. A host decides how
requests are answered, how fine its clock is, and when the run is cancelled from outside.
-/

namespace TxWorkload
namespace Routine

/-! ## Hosts -/

/-- How waits are timed. An ideal clock ends every wait exactly when it is due. -/
structure Clock where
  /-- The distance of the moments at which waits can end, in nanoseconds. -/
  tick : Nat := 1
  tick_pos : 0 < tick := by decide
  /-- The longest wait in nanoseconds, if there is one; a longer one is cut to it. -/
  longest : Option Nat := none

namespace Clock

/-- A clock that counts milliseconds, and for which no wait is longer than thirty years. -/
def millis : Clock where
  tick := 1000000
  longest := some (30 * 365 * 86400 * nanosPerSec)

/-- The first moment of a clock that is not before a time. -/
def roundUp (c : Clock) (t : Nat) : Nat :=
  (t + (c.tick - 1)) / c.tick * c.tick

/-- How long a wait lasts, before it is rounded. -/
def span (c : Clock) (d : Duration) : Nat :=
  match c.longest with
  | some longest => Nat.min d.toNanos longest
  | none => d.toNanos

/-- The end of a wait that starts now. -/
def deadline (c : Clock) (now : Nat) (d : Duration) : Nat :=
  c.roundUp (now + c.span d)

end Clock

/-- How a request is answered: with what, after which time if ever, and whether the run is
cancelled just before the answer is delivered. -/
structure Reply (α : Type) where
  answer : α
  delay : Option Duration := some (.ofSecs 0)
  cancels : Bool := false

/-- The surroundings of a run. -/
structure Host (S : Signature) where
  /-- The reply to a request, given the earlier requests, latest first. -/
  transport : List S.Request → S.Request → Reply S.Answer
  clock : Clock := {}
  /-- How many timers may end in one turn of a task; after so many it gives way at its next
  checkpoint. -/
  turnLength : Nat := 128
  /-- When the run is cancelled from outside. -/
  cancelAt : Option Nat := none
  /-- The moment from which the uptime counts. -/
  started : Int := 0

/-! ## Worlds -/

/-- What a journal tells of. -/
inductive Event (S : Signature)
  | sent (request : S.Request)
  | logged (level : Level) (text : String)
  | counted (a : Stats.Access)
  | marked (m : S.Mark)

/-- An event and its time. -/
structure Entry (S : Signature) where
  time : Nat
  event : Event S

/-- The state that routines share. -/
structure World (S : Signature) where
  /-- Nanoseconds since the start of the run. -/
  now : Nat := 0
  counters : Stats.Counters := {}
  supply : Random.Supply := []
  cancelled : Bool := false
  /-- All requests so far, latest first. -/
  past : List S.Request := []
  /-- What happened in the run, latest first. -/
  journal : List (Entry S) := []
  /-- The number of waits so far. -/
  tickets : Nat := 0

instance (S : Signature) : Inhabited (World S) := ⟨{}⟩

namespace World

variable {S : Signature}

/-- Write an event into the journal. -/
def note (w : World S) (e : Event S) : World S :=
  { w with journal := ⟨w.now, e⟩ :: w.journal }

/-- What an effect does: it has a value and leaves a world, or it ends its routine because it lacks
words or asks for the impossible. -/
inductive Performed (S : Signature) (β : Type)
  | value (b : β) (w : World S)
  | starved
  | aborted (cause : Abort)

/-- Perform an effect on behalf of a routine that is cancelled if `token` says so. -/
def perform (w : World S) (host : Host S) (token : Bool) {β : Type} :
    Effect S β → Performed S β
  | .access a =>
      let (old, counters) := a.apply w.counters
      .value old ({ w with counters }.note (.counted a))
  | .log level text => .value () (w.note (.logged level text))
  | .mark m => .value () (w.note (.marked m))
  | .isCancelled => .value token w
  | .checkpoint => .value token w
  | .cancel => .value () { w with cancelled := true }
  | .clock => .value w.now w
  | .uptime => .value ⟨w.now - host.started⟩ w
  | .draw d =>
      match d w.supply with
      | .value b supply => .value b { w with supply }
      | .dry => .starved
      | .abort cause => .aborted cause

/-- A wait that has begun: what it will give, when it ends if ever, whether it cancels the run when
it ends, and its number among all waits. -/
structure Pending (β : Type) where
  answer : β
  due : Option Nat
  cancels : Bool := false
  ticket : Nat

/-- Begin a wait. -/
def begin (w : World S) (host : Host S) {β : Type} : Wait S β → World S × Pending β
  | .reply request =>
      let r := host.transport w.past request
      ({ w with past := request :: w.past, tickets := w.tickets + 1 }.note (.sent request),
        { answer := r.answer
          due := r.delay.map (host.clock.deadline w.now)
          cancels := r.cancels
          ticket := w.tickets })
  | .timer d =>
      ({ w with tickets := w.tickets + 1 },
        { answer := (), due := some (host.clock.deadline w.now d), ticket := w.tickets })

/-- Whether a wait has ended. -/
def hasEnded (w : World S) {β : Type} (p : Pending β) : Bool :=
  match p.due with
  | some due => due ≤ w.now
  | none => false

/-- The world in which the answer of a wait is delivered. -/
def deliver (w : World S) {β : Type} (p : Pending β) : World S :=
  if p.cancels then { w with cancelled := true } else w

/-! ## Time -/

/-- The next moment at which something happens: the end of a wait or the cancellation of the
run. -/
def nextMoment (w : World S) (host : Host S) (dues : List Nat) : Option Nat :=
  let cancel := if w.cancelled then none else host.cancelAt.map (Nat.max w.now)
  (dues ++ cancel.toList).min?

/-- Let time pass until a moment. -/
def passTo (w : World S) (host : Host S) (moment : Nat) : World S :=
  let reached := match host.cancelAt with
    | some t => decide (t ≤ moment)
    | none => false
  { w with now := moment, cancelled := w.cancelled || reached }

end World
end Routine
end TxWorkload
