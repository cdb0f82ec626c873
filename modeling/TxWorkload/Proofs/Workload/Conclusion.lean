import TxWorkload.Proofs.Routine.Quitting
import TxWorkload.Proofs.Workload.Timeline

/-!
# Conclusion — the end of a run

When the generation has told its number, the run writes it down, stops the watch and writes the
statistics. If the watch rests, it does nothing while it is stopped, so the three lines are the last
ones of the run, and nothing is sent after the first of them.
-/

namespace TxWorkload
namespace Workload

open Routine (Host Strand World)

namespace Run

variable {w : Workload} {host : Host activities}

/-! ## Stopping the watch -/

/-- A watch that quits comes to its end, and the world stays as it is. -/
theorem exists_run_stopping (w : Workload) (host : Host activities) {α : Type} {p : Activity α}
    {P : α → Prop} (hp : p.Quits False P) (k : α → Activity Unit) (world : World activities) :
    ∃ n a, P a ∧ run w host n (.stopping world (.active (p.andThen k))) =
      .stopping world (.active (k a)) := by
  -- The watch is told that it is cancelled, so each effect gives the answer that makes it quit.
  induction p with
  | done a => exact ⟨0, a, hp, rfl⟩
  | perform e next ih =>
      rcases hp with ⟨b, hb, hnext⟩
      rcases Strand.perform_of_looks host world hb with ⟨world', he, -, hsame⟩
      rcases hsame id with rfl
      have hstep : step w host (.stopping world' (.active ((Routine.perform e next).andThen k))) =
          some (.stopping world' (.active ((next b).andThen k))) := by
        simp only [step, Routine.andThen, Strand.advance, he]
      rcases ih b hnext k with ⟨n, a, ha, hrun⟩
      exact ⟨n + 1, a, ha, (run_one hstep n).trans hrun⟩
  | wait what next _ => exact hp.elim
  | race what next _ => exact hp.elim
  | loop s body next ihb ih =>
      -- A cancelled turn ends the loop, so one turn is all that is unrolled.
      let onward := Routine.onward body fun b => (next b).andThen k
      rcases ihb s hp onward with ⟨n, turn, ⟨b, rfl, hnext⟩, hturn⟩
      rcases ih b hnext k with ⟨m, a, ha, hrun⟩
      have hstep : step w host (.stopping world (.active ((Routine.loop s body next).andThen k))) =
          some (.stopping world (.active ((body s).andThen onward))) := rfl
      refine ⟨n + m + 1, a, ha, ?_⟩
      rw [run_one hstep, run_add, hturn]
      exact hrun

theorem exists_run_closing (w : Workload) (host : Host activities)
    {watch : Strand activities Unit} (h : watch.Quits False) (world : World activities) :
    ∃ n, run w host n (.stopping world watch) = .closing world (.active Workload.closing) := by
  have hactive : ∀ p : Activity Unit, (p.Quits False fun _ => True) →
      ∃ n, run w host n (.stopping world (.active p)) =
        .closing world (.active Workload.closing) := by
    intro p hp
    rcases exists_run_stopping w host hp .done world with ⟨n, a, -, hrun⟩
    rw [Routine.andThen_done] at hrun
    exact ⟨n + 1, by rw [run_add, hrun]; rfl⟩
  cases watch with
  | active p => exact hactive p h
  | blocked pending next => exact h.elim
  | contested pending next =>
      rcases hactive (next none) h with ⟨n, hrun⟩
      exact ⟨n + 1, hrun⟩
  | starved => exact ⟨1, rfl⟩
  | aborted cause => exact ⟨1, rfl⟩

/-! ## The last lines -/

/-- The statistics line for some counters after some uptime, written out. -/
def statisticsLine (c : Stats.Counters) (uptime : Uptime) : String :=
  let rate := c.successful.toFloat / (if c.total = 0 then 1 else c.total).toFloat * 100.0
  let secs := Float.ofInt uptime.wholeMillis / 1000.0
  let pace := if secs > 0.0 then c.total.toFloat / secs else 0.0
  s!"📊 Stats: {c.total} total txs, {c.successful} successful ({Binary64.fixed 1 rate}%), " ++
    s!"{c.failed} failed, {c.blocksObserved} blocks observed, {Binary64.fixed 2 pace} tx/s, " ++
    s!"Uptime: {uptime.text}"

/-- The line that a run writes for a snapshot shows its counters and its uptime. -/
theorem statisticsLine_eq (s : Stats.Snapshot) :
    s!"📊 {s.summary}" = statisticsLine s.counters s.uptime := by
  -- The two texts are cut into pieces at different places.
  have hstart : "📊 Stats: " = "📊 " ++ "Stats: " := by decide
  have hrate : " successful (" = " successful " ++ "(" := by decide
  have htext : ∀ text : String, toString text = text := fun _ => rfl
  unfold Stats.Snapshot.summary statisticsLine
  simp only [htext, hstart, hrate, String.append_assoc]
  rfl

/-- How a run ends that returns a snapshot, when its generation has told a number. -/
structure Closed (host : Host activities) (x : Run) (count : Nat) (s : Stats.Snapshot) : Prop where
  counters : s.counters = x.world.counters
  uptime : s.uptime.nanos = x.world.now - host.started
  /-- The last lines, latest first: the snapshot carries the counters that are written. -/
  lines : ∃ earlier : List (Routine.Level × String),
    x.world.lines = (.info, "🛑 Transaction generator stopped") ::
      (.info, statisticsLine s.counters s.uptime) ::
      (.info, s!"Generated {count} transactions outside bursts") :: earlier

/-- A world after all counters were looked at. -/
def looked (world : World activities) : World activities :=
  ((((world.note (.counted (.load .total))).note (.counted (.load .successful))).note
    (.counted (.load .failed))).note (.counted (.load .lastBlock))).note
      (.counted (.load .blocksObserved))

/-- The snapshot of a world. -/
def seen (host : Host activities) (world : World activities) : Stats.Snapshot :=
  ⟨world.counters, ⟨world.now - host.started⟩⟩

theorem seen_note (world : World activities) (e : Routine.Event activities) :
    seen host (world.note e) = seen host world := by
  simp only [seen, World.note]

theorem seen_looked (world : World activities) : seen host (looked world) = seen host world := by
  simp only [looked, seen_note]

theorem run_load (n : Nat) (world : World activities) (c : Stats.Counter)
    (k : UInt64 → Activity Stats.Snapshot) :
    run w host (n + 1) (.closing world (.active (Routine.access (.load c) >>= k))) =
      run w host n (.closing (world.note (.counted (.load c)))
        (.active (k (world.counters.get c)))) := by
  cases c <;> rfl

theorem run_log (n : Nat) (world : World activities) (text : String)
    (k : Unit → Activity Stats.Snapshot) :
    run w host (n + 1) (.closing world (.active (Routine.log .info text >>= k))) =
      run w host n (.closing (world.note (.logged .info text)) (.active (k ()))) :=
  rfl

theorem run_snapshot (n : Nat) (world : World activities)
    (k : Stats.Snapshot → Activity Stats.Snapshot) :
    run w host (n + 6) (.closing world (.active (Activity.snapshot >>= k))) =
      run w host n (.closing (looked world) (.active (k (seen host world)))) := by
  unfold Activity.snapshot
  simp only [bind_assoc]
  rw [run_load, run_load, run_load, run_load, run_load]
  rfl

/-- A world after the last lines of a run. -/
def told (world : World activities) (s : Stats.Snapshot) : World activities :=
  (world.note (.logged .info s!"📊 {s.summary}")).note
    (.logged .info "🛑 Transaction generator stopped")

/-- The run writes the counters down, and then looks at them once more. -/
theorem run_closing (world : World activities) :
    run w host 14 (.closing world (.active Workload.closing)) =
      .closing (looked (told (looked world) (seen host world)))
        (.active (.done (seen host world))) := by
  unfold Workload.closing Activity.printStats
  simp only [bind_assoc]
  rw [run_snapshot 8, run_log 7, run_log 6, ← bind_pure Activity.snapshot, run_snapshot 0,
    seen_note, seen_note, seen_looked]
  rfl

theorem lines_looked (world : World activities) : (looked world).lines = world.lines :=
  rfl

theorem lines_told (world : World activities) (s : Stats.Snapshot) :
    (told world s).lines = (.info, "🛑 Transaction generator stopped") ::
      (.info, s!"📊 {s.summary}") :: world.lines :=
  rfl

/-- A run that closes after a line on the transactions ends, and its lines are the last ones. -/
theorem exists_run_closed (w : Workload) (host : Host activities) (world : World activities)
    {count : Nat} {earlier : List (Routine.Level × String)}
    (hlines : world.lines = (.info, s!"Generated {count} transactions outside bursts") :: earlier) :
    ∃ n s, (run w host n (.closing world (.active Workload.closing))).result? = some s ∧
      (run w host n (.closing world (.active Workload.closing))).Closed host count s ∧
      (run w host n (.closing world (.active Workload.closing))).world.past = world.past := by
  refine ⟨14, seen host world, ?_⟩
  rw [run_closing]
  refine ⟨rfl, ⟨?_, ?_, earlier, ?_⟩, ?_⟩
  · simp only [seen, Run.world, looked, told, World.note]
  · simp only [seen, Run.world, looked, told, World.note]
  · rw [Run.world, lines_looked, lines_told, lines_looked, hlines, statisticsLine_eq]
  · simp only [Run.world, looked, told, World.note]

/-- A run whose generation has told its number, and whose watch rests, comes to its end. -/
theorem exists_run_concluded (w : Workload) (host : Host activities)
    {watch : Strand activities Unit} (h : watch.Quits False) (world : World activities)
    (count : Nat) :
    ∃ n s, (run w host n (.judging world (.active (verdict (.ok count))) watch)).result? = some s ∧
      (run w host n (.judging world (.active (verdict (.ok count))) watch)).Closed host count s ∧
      (run w host n (.judging world (.active (verdict (.ok count))) watch)).world.past =
        world.past := by
  let counted := world.note (.logged .info s!"Generated {count} transactions outside bursts")
  have hjudged : run w host 2 (.judging world (.active (verdict (.ok count))) watch) =
      .stopping counted watch := rfl
  rcases exists_run_closing w host h counted with ⟨n, hstopped⟩
  rcases exists_run_closed w host counted rfl with
    ⟨m, s, hresult, hclosed, hpast⟩
  refine ⟨2 + (n + m), s, ?_⟩
  rw [run_add, hjudged, run_add, hstopped]
  exact ⟨hresult, hclosed, hpast⟩

/-! ## The end of the generation -/

/-- The only step out of the generation is the one after its outcome. -/
theorem judged_of_step {x y : Run} (hx : ¬ x.Late) (h : x.step w host = some y) (hy : y.Late) :
    ∃ world generation watch turn outcome, x = .working world generation watch turn ∧
      outcome? generation = some outcome ∧
      y = .judging world (.active (verdict outcome)) watch := by
  cases x with
  | opening world banner =>
      simp only [step] at h
      split at h
      · cases h
        exact hy.elim
      · cases h
        exact hy.elim
  | working world generation watch turn =>
      simp only [step] at h
      split at h
      · rename_i houtcome
        cases h
        exact ⟨_, _, _, _, _, rfl, houtcome, rfl⟩
      · split at h
        · cases h
        · cases proceeds_of_proceed h with
          | generation _ _ _ => exact hy.elim
          | watch _ _ => exact hy.elim
          | pass _ _ _ => exact hy.elim
  | judging world line watch => exact absurd trivial hx
  | stopping world watch => exact absurd trivial hx
  | closing world last => exact absurd trivial hx

/-- A run that is past its generation has left it at some step. -/
theorem exists_judged {x : Run} {n : Nat} (hx : ¬ x.Late) (hn : (run w host n x).Late) :
    ∃ k < n, ∃ world generation watch turn outcome,
      run w host k x = .working world generation watch turn ∧
        outcome? generation = some outcome ∧
        run w host (k + 1) x = .judging world (.active (verdict outcome)) watch := by
  induction n generalizing x with
  | zero => exact absurd hn hx
  | succ n ih =>
      cases h : x.step w host with
      | none =>
          rw [run_of_step_eq_none h] at hn
          exact absurd hn hx
      | some y =>
          rw [run_one h] at hn
          by_cases hy : y.Late
          · rcases judged_of_step hx h hy with
              ⟨world, generation, watch, turn, outcome, rfl, houtcome, rfl⟩
            exact ⟨0, Nat.succ_pos n, _, _, _, _, _, rfl, houtcome, run_one h 0⟩
          · rcases ih hy hn with ⟨k, hk, world, generation, watch, turn, outcome, hbefore, hrest⟩
            refine ⟨k + 1, Nat.succ_lt_succ hk, world, generation, watch, turn, outcome, ?_⟩
            rw [run_one h, run_one h]
            exact ⟨hbefore, hrest⟩

end Run
end Workload
end TxWorkload
