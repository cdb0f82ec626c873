import TxWorkload.Routine.World

/-!
# Strand — a routine on its way

A strand is a routine between two steps: it goes on, waits, or has ended early. A wait that races
against cancellation loses as soon as the routine is cancelled, even when it has just ended; an
answer that comes without waiting is delivered at once.
-/

namespace TxWorkload
namespace Routine

/-- A routine between two steps. -/
inductive Strand (S : Signature) (α : Type) : Type 1
  | active (p : Routine S α)
  | blocked {β : Type} (pending : World.Pending β) (next : β → Routine S α)
  | contested {β : Type} (pending : World.Pending β) (next : Option β → Routine S α)
  | starved
  | aborted (cause : Abort)

namespace Strand

variable {S : Signature} {α : Type}

/-- The result of a strand that is done. -/
def result? : Strand S α → Option α
  | .active (.done a) => some a
  | _ => none

/-- Whether a strand has nothing left to do. -/
def isOver : Strand S α → Bool
  | .active (.done _) => true
  | .starved => true
  | .aborted _ => true
  | _ => false

/-- When the wait of a strand ends, and its number. -/
def due? : Strand S α → Option (Nat × Nat)
  | .blocked pending _ => pending.due.map fun due => (due, pending.ticket)
  | .contested pending _ => pending.due.map fun due => (due, pending.ticket)
  | _ => none

/-- Whether a strand has come to a checkpoint. -/
def atCheckpoint : Strand S α → Bool
  | .active (.perform .checkpoint _) => true
  | _ => false

/-- Whether a strand waits. -/
def isWaiting : Strand S α → Bool
  | .blocked _ _ => true
  | .contested _ _ => true
  | _ => false

/-- Whether the next step of a strand ends a timer, or a wait for a reply that took time. -/
def endsTimer (host : Host S) (token : Bool) (w : World S) : Strand S α → Bool
  | .active (.wait (.timer d) _) => host.clock.deadline w.now d ≤ w.now
  | .active (.race (.timer d) _) => host.clock.deadline w.now d ≤ w.now
  | .blocked pending _ => w.hasEnded pending
  | .contested pending _ => !token && w.hasEnded pending
  | _ => false

/-- One step at the present moment, if there is one. `token` tells whether the routine is
cancelled. -/
def advance (host : Host S) (token : Bool) (w : World S) :
    Strand S α → Option (World S × Strand S α)
  | .active (.done _) => none
  | .active (.perform e next) =>
      match w.perform host token e with
      | .value b w' => some (w', .active (next b))
      | .starved => some (w, .starved)
      | .aborted cause => some (w, .aborted cause)
  | .active (.wait what next) =>
      let (w', pending) := w.begin host what
      if w'.hasEnded pending then some (w'.deliver pending, .active (next pending.answer))
      else some (w', .blocked pending next)
  | .active (.race what next) =>
      let (w', pending) := w.begin host what
      if w'.hasEnded pending then some (w'.deliver pending, .active (next (some pending.answer)))
      else some (w', .contested pending next)
  | .active (.loop state body next) =>
      some (w, .active ((body state).andThen fun turn =>
        match turn with
        | .inl state => .loop state body next
        | .inr b => next b))
  | .blocked pending next =>
      if w.hasEnded pending then some (w.deliver pending, .active (next pending.answer))
      else none
  | .contested pending next =>
      if token then some (w, .active (next none))
      else if w.hasEnded pending then some (w.deliver pending, .active (next (some pending.answer)))
      else none
  | .starved => none
  | .aborted _ => none

end Strand

/-! ## A single routine -/

/-- A world with one routine in it. -/
structure Solo (S : Signature) (α : Type) : Type 1 where
  world : World S
  strand : Strand S α

namespace Solo

variable {S : Signature} {α : Type}

/-- A routine that is about to start. -/
def start (world : World S) (p : Routine S α) : Solo S α :=
  ⟨world, .active p⟩

/-- One step: the routine goes on, or time passes while it waits. There is none once the routine is
over, or if it waits for what never comes. -/
def step (host : Host S) (x : Solo S α) : Option (Solo S α) :=
  match x.strand.advance host x.world.cancelled x.world with
  | some (world, strand) => some ⟨world, strand⟩
  | none =>
      if x.strand.isOver then none
      else
        (x.world.nextMoment host (x.strand.due?.map Prod.fst).toList).map fun moment =>
          { x with world := x.world.passTo host moment }

/-- A number of steps, or as many as there are. -/
def run (host : Host S) : Nat → Solo S α → Solo S α
  | 0, x => x
  | n + 1, x =>
      match x.step host with
      | some x' => run host n x'
      | none => x

end Solo
end Routine
end TxWorkload
