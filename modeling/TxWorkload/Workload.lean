import TxWorkload.Activity.Generation
import TxWorkload.Config.Validation
import TxWorkload.Routine.Strand

/-!
# Workload — a whole run

A workload joins accepted settings, a pool of accounts and the two nodes. Its run writes a banner,
lets the generation and the watch of the network go on side by side, stops the watch when the
generation has ended, and closes with the statistics. The two tasks share one world and take turns:
a task goes on until it has to wait, or until so many timers have ended in its turn that it gives
way at its next checkpoint. Time passes when neither of them can go on.
-/

namespace TxWorkload

/-- Settings that are accepted, and what they lead to. -/
structure Workload where
  config : Config
  pool : Account.Pool
  accepted : config.flaw? = none

namespace Workload

/-! ## Assembly -/

/-- The pool of the given keys, or of the development network. -/
def poolOf : Option (List String) → Except Error Account.Pool
  | some keys => Account.Pool.ofPrivateKeys keys
  | none => .ok Account.Pool.development

/-- The workload of settings, if they are accepted and their keys give a pool. -/
def make (config : Config) : Except Error Workload :=
  match accepted : config.flaw? with
  | some cause => .error cause
  | none =>
      match poolOf config.accountKeys with
      | .ok pool => .ok { config, pool, accepted }
      | .error cause => .error cause

/-- The two nodes. -/
def network (w : Workload) : Activity.Network where
  validator := ⟨"Validator", w.config.rpcUrl⟩
  sequencer := ⟨"Sequencer", w.config.sequencerUrl⟩

/-- What the generation needs to know. -/
def plan (w : Workload) : Activity.Plan where
  generator := .ofPool w.pool
  network := w.network
  bursts := if w.config.burstMode then some w.config.bursts else none
  txInterval := w.config.txInterval
  startupPoll := w.config.startupPoll
  statsInterval := w.config.statsInterval

/-! ## The parts of a run -/

open Routine (log Host Strand World)

/-- The banner. -/
def opening (w : Workload) : Activity Unit := do
  log .info "🚀 Starting continuous transaction generator"
  log .info
    s!"🎯 Target: Validator={w.config.rpcUrl}, Sequencer={w.config.sequencerUrl}"
  log .info
    (s!"⏱️  Interval: {w.config.txInterval.secs}s, Burst mode: {w.config.burstMode}, " ++
      s!"Accounts: {w.pool.size}")

/-- The line about the end of the generation. -/
def verdict : Except Error Nat → Activity Unit
  | .ok count => log .info s!"Generated {count} transactions outside bursts"
  | .error cause => log .error s!"Unexpected error: {cause.message}"

/-- The last lines, and the counters when all is over. -/
def closing : Activity Stats.Snapshot := do
  Activity.printStats
  log .info "🛑 Transaction generator stopped"
  Activity.snapshot

/-! ## Runs -/

/-- The two tasks that go on side by side. -/
inductive Task
  | watch
  | generation
  deriving DecidableEq, Repr

/-- The other task. -/
def Task.other : Task → Task
  | .watch => .generation
  | .generation => .watch

/-- Whose turn it is, and what is to be known of it. -/
structure Turn where
  task : Task
  /-- The timers that have ended in this turn. -/
  ended : Nat := 0
  /-- Whether the other task has given way, and lets this one go on first. -/
  ahead : Bool := false
  deriving DecidableEq, Repr

namespace Turn

/-- The turn after a step of its strand. A strand that has waited begins anew. -/
def after (t : Turn) (host : Host activities) (world : World activities) {α : Type}
    (s : Strand activities α) : Turn :=
  let before := if s.isWaiting then 0 else t.ended
  { t with ended := if s.endsTimer host world.cancelled world then before + 1 else before }

end Turn

/-- A run between two steps. In the middle of it the two tasks take turns. -/
inductive Run : Type 1
  | opening (world : World activities) (banner : Strand activities Unit)
  | working (world : World activities) (generation : Strand activities Nat)
      (watch : Strand activities Unit) (turn : Turn)
  | judging (world : World activities) (line : Strand activities Unit)
      (watch : Strand activities Unit)
  | stopping (world : World activities) (watch : Strand activities Unit)
  | closing (world : World activities) (last : Strand activities Stats.Snapshot)

namespace Run

/-- The world of a run. -/
def world : Run → World activities
  | .opening world _ => world
  | .working world _ _ _ => world
  | .judging world _ _ => world
  | .stopping world _ => world
  | .closing world _ => world

/-- The snapshot with which a run has ended. -/
def result? : Run → Option Stats.Snapshot
  | .closing _ last => last.result?
  | _ => none

/-- How the generation has ended, if it has. -/
def outcome? : Strand activities Nat → Option (Except Error Nat)
  | .active (.done count) => some (.ok count)
  | .aborted cause => some (.error (.task cause.message))
  | _ => none

/-- The step of the task whose turn it is, if it can go on. -/
def stepOf (host : Host activities) (world : World activities)
    (generation : Strand activities Nat) (watch : Strand activities Unit) (t : Turn) :
    Option Run :=
  match t.task with
  | .generation =>
      (generation.advance host world.cancelled world).map fun r =>
        .working r.1 r.2 watch (t.after host world generation)
  | .watch =>
      (watch.advance host world.cancelled world).map fun r =>
        .working r.1 generation r.2 (t.after host world watch)

/-- Whether the task whose turn it is has come to the end of its turn. -/
def isUsedUp (host : Host activities) (generation : Strand activities Nat)
    (watch : Strand activities Unit) (t : Turn) : Bool :=
  decide (host.turnLength ≤ t.ended) &&
    match t.task with
    | .generation => generation.atCheckpoint
    | .watch => watch.atCheckpoint

/-- The task whose wait ended first, of the waits that have ended. -/
def firstDue (now : Nat) (generation watch : Option (Nat × Nat)) : Task :=
  match generation, watch with
  | some (due, ticket), some (other, otherTicket) =>
      if due ≤ now ∧ (now < other ∨ ticket < otherTicket) then .generation else .watch
  | some (due, _), none => if due ≤ now then .generation else .watch
  | none, _ => .watch

/-- Let time pass until something happens. -/
def pass (host : Host activities) (world : World activities)
    (generation : Strand activities Nat) (watch : Strand activities Unit) : Option Run :=
  let dues := (generation.due?.map Prod.fst).toList ++ (watch.due?.map Prod.fst).toList
  (world.nextMoment host dues).map fun moment =>
    .working (world.passTo host moment) generation watch
      { task := firstDue moment generation.due? watch.due? }

/-- The next step of the two tasks. A task at the end of its turn gives way to the other one,
unless that cannot go on or has itself given way; then it has another turn. A task that cannot go on
leaves its turn to the other one, and time passes when that cannot go on either. -/
def proceed (host : Host activities) (world : World activities)
    (generation : Strand activities Nat) (watch : Strand activities Unit) (t : Turn) :
    Option Run :=
  let go := stepOf host world generation watch
  if isUsedUp host generation watch t then
    (if t.ahead then none else go { task := t.task.other, ahead := true }) <|>
      go { task := t.task }
  else
    go t <|> go { task := t.task.other } <|> pass host world generation watch

/-- One step of a run, if there is one. -/
def step (w : Workload) (host : Host activities) : Run → Option Run
  | .opening world banner =>
      match banner.advance host world.cancelled world with
      | some (world, banner) => some (.opening world banner)
      | none =>
          some (.working world (.active w.plan.run)
            (.active (Activity.watch w.network w.config.watch)) { task := .watch })
  | .working world generation watch turn =>
      match outcome? generation with
      | some outcome => some (.judging world (.active (verdict outcome)) watch)
      | none =>
          if generation.isOver then none else proceed host world generation watch turn
  | .judging world line watch =>
      match line.advance host world.cancelled world with
      | some (world, line) => some (.judging world line watch)
      | none => some (.stopping world watch)
  | .stopping world watch =>
      match watch.advance host true world with
      | some (world, watch) => some (.stopping world watch)
      | none => some (.closing world (.active Workload.closing))
  | .closing world last =>
      (last.advance host world.cancelled world).map fun r => .closing r.1 r.2

/-- A number of steps, or as many as there are. -/
def run (w : Workload) (host : Host activities) : Nat → Run → Run
  | 0, x => x
  | n + 1, x =>
      match x.step w host with
      | some x' => run w host n x'
      | none => x

end Run

/-- A run that is about to start. -/
def start (w : Workload) (world : World activities) : Run :=
  .opening world (.active w.opening)

end Workload
end TxWorkload
