import TxWorkload.Duration
import TxWorkload.Random.Supply
import TxWorkload.Stats.Counters
import TxWorkload.Uptime

/-!
# Routines — programs that act, wait and race against cancellation

A routine is a tree of what a task does: it performs effects, which take no time, and it waits for
a reply or a timer. A wait may race against the cancellation of the run, and then goes on without
its result once the run is cancelled. Loops are nodes of the tree, so a routine that never ends is
still a finite value, and what it does is read off by a host, one step at a time.
-/

namespace TxWorkload

/-! ## Signatures -/

/-- What the routines of a program exchange with their surroundings: requests and answers, and the
marks by which they note their own progress. -/
structure Signature where
  Request : Type
  Answer : Type
  Mark : Type

namespace Routine

/-- The importance of a log line. -/
inductive Level
  | info
  | warn
  | error
  deriving DecidableEq, Repr

/-- The name of a level in log lines. -/
def Level.name : Level → String
  | .info => "INFO"
  | .warn => "WARN"
  | .error => "ERROR"

/-- What a routine does without waiting. A checkpoint asks whether the run is cancelled, as
`isCancelled` does, and is a place where a routine that has gone on for long may give way. -/
inductive Effect (S : Signature) : Type → Type 1
  | access (a : Stats.Access) : Effect S UInt64
  | log (level : Level) (text : String) : Effect S Unit
  | mark (m : S.Mark) : Effect S Unit
  | isCancelled : Effect S Bool
  | checkpoint : Effect S Bool
  | cancel : Effect S Unit
  | clock : Effect S Nat
  | uptime : Effect S Uptime
  | draw {α : Type} (d : Random.Draw α) : Effect S α

/-- What a routine waits for. -/
inductive Wait (S : Signature) : Type → Type
  | reply (request : S.Request) : Wait S S.Answer
  | timer (d : Duration) : Wait S Unit

end Routine

open Routine (Effect Wait)

/-! ## Routines -/

/-- A program of effects and waits with a result. The body of a loop gives its next state or the
result of the loop. -/
inductive Routine (S : Signature) : Type → Type 1
  | done {α : Type} (a : α) : Routine S α
  | perform {α β : Type} (e : Effect S β) (next : β → Routine S α) : Routine S α
  | wait {α β : Type} (w : Wait S β) (next : β → Routine S α) : Routine S α
  | race {α β : Type} (w : Wait S β) (next : Option β → Routine S α) : Routine S α
  | loop {α β σ : Type} (state : σ) (body : σ → Routine S (σ ⊕ β)) (next : β → Routine S α) :
      Routine S α

namespace Routine

variable {S : Signature}

/-- One routine after another. -/
def andThen {α β : Type} : Routine S α → (α → Routine S β) → Routine S β
  | .done a, k => k a
  | .perform e next, k => .perform e fun b => (next b).andThen k
  | .wait w next, k => .wait w fun b => (next b).andThen k
  | .race w next, k => .race w fun b => (next b).andThen k
  | .loop s body next, k => .loop s body fun b => (next b).andThen k

instance : Monad (Routine S) where
  pure := .done
  bind := andThen

theorem andThen_done {α : Type} (p : Routine S α) : p.andThen .done = p := by
  induction p with
  | done a => rfl
  | perform e next ih => simp only [andThen, ih]
  | wait w next ih => simp only [andThen, ih]
  | race w next ih => simp only [andThen, ih]
  | loop s body next _ ih => simp only [andThen, ih]

theorem andThen_andThen {α β γ : Type} (p : Routine S α) (k : α → Routine S β)
    (l : β → Routine S γ) :
    (p.andThen k).andThen l = p.andThen fun a => (k a).andThen l := by
  induction p with
  | done a => rfl
  | perform e next ih => simp only [andThen, ih]
  | wait w next ih => simp only [andThen, ih]
  | race w next ih => simp only [andThen, ih]
  | loop s body next _ ih => simp only [andThen, ih]

instance : LawfulMonad (Routine S) :=
  LawfulMonad.mk' (Routine S)
    (fun p => andThen_done p)
    (fun _ _ => rfl)
    (fun p k l => andThen_andThen p k l)

/-! ## Single steps -/

/-- Do something without waiting. -/
def act {β : Type} (e : Effect S β) : Routine S β :=
  .perform e .done

/-- Wait for something. -/
def await {β : Type} (w : Wait S β) : Routine S β :=
  .wait w .done

/-- Repeat a body until it gives a result. -/
def iterate {β σ : Type} (state : σ) (body : σ → Routine S (σ ⊕ β)) : Routine S β :=
  .loop state body .done

/-- Write a log line. -/
def log (level : Level) (text : String) : Routine S Unit :=
  act (.log level text)

/-- Whether the run is cancelled. -/
def isCancelled : Routine S Bool :=
  act .isCancelled

/-- Whether the run is cancelled, after giving way if others are to go first. -/
def checkpoint : Routine S Bool :=
  act .checkpoint

/-- Add to a counter, raise it, or look at it. -/
def access (a : Stats.Access) : Routine S UInt64 :=
  act (.access a)

/-- Draw from the supply of random words. -/
def draw {α : Type} (d : Random.Draw α) : Routine S α :=
  act (.draw d)

/-- Note progress. -/
def mark (m : S.Mark) : Routine S Unit :=
  act (.mark m)

/-- Wait for a reply. -/
def ask (request : S.Request) : Routine S S.Answer :=
  await (.reply request)

/-- Wait for some time. -/
def sleep (d : Duration) : Routine S Unit :=
  await (.timer d)

end Routine
end TxWorkload
