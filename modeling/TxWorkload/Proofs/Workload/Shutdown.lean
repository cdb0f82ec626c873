import TxWorkload.Proofs.Activity.Promptness
import TxWorkload.Proofs.Activity.Quitting
import TxWorkload.Proofs.Workload.Conclusion

/-!
# Shutdown — a run ends at the moment at which it is cancelled

While a run is not cancelled, its generation does not end. Once it is cancelled, the generation can
always go on, so no time passes any more; and the generation only goes on while the watch rests, so
the watch quits in silence when it is stopped. Hence nothing happens after the cancellation, and the
last lines of the run are the ones that close it.
-/

namespace TxWorkload
namespace Workload

open Activity (watch)
open Routine (Host Strand World timely)

namespace Run

variable {w : Workload} {host : Host activities} {bound : Nat} {x y : Run}

/-! ## The invariant -/

/-- A run that has started its two tasks. -/
def spawned (w : Workload) (world : World activities) : Run :=
  .working world (.active w.plan.run) (.active (watch w.network w.config.watch)) { task := .watch }

/-- What holds of the two tasks. The watch rests during the turns of the generation, and the
generation ends in one of them. -/
structure Tasked (host : Host activities) (bound : Nat) (world : World activities)
    (generation : Strand activities Nat) (watch : Strand activities Unit) (turn : Turn) : Prop where
  generates : generation.Keeps (timely host bound) (fun _ world => world.cancelled = true) world
  watches : watch.Keeps (timely host bound) (fun _ _ => True) world
  interruptible : watch.Interruptible
  rests : turn.task = .generation → watch.Quits False
  ends : generation.isOver = true → turn.task = .generation

/-- Whether a run is past the end of its generation, and the watch had come to rest by then. -/
def Concluding (w : Workload) (host : Host activities) (x : Run) : Prop :=
  ∃ (n : Nat) (world : World activities) (count : Nat) (watch : Strand activities Unit),
    watch.Quits False ∧ world.cancelled = true ∧
      x = run w host n (.judging world (.active (verdict (.ok count))) watch)

/-- What holds of a run that started in good order, as long as time is within a bound. -/
inductive Orderly (w : Workload) (host : Host activities) (bound : Nat) : Run → Prop
  | opening {world world' : World activities} {banner : Strand activities Unit} {n : Nat}
      (h : run w host (n + 1) (.opening world banner) = spawned w world')
      (hpast : world'.past = world.past) : Orderly w host bound (.opening world banner)
  | working {world : World activities} {generation : Strand activities Nat}
      {watch : Strand activities Unit} {turn : Turn}
      (h : Tasked host bound world generation watch turn) :
      Orderly w host bound (.working world generation watch turn)
  | concluding {x : Run} (h : Concluding w host x) : Orderly w host bound x

/-- Settings under which the tasks of a workload take their time. -/
structure Paced (w : Workload) (host : Host activities) : Prop where
  poll : Duration.ofMillis 1 ≤ w.config.watch.poll
  recovery : Duration.ofMillis 1 ≤ w.config.watch.recovery
  startup : Duration.ofMillis 1 ≤ w.config.startupPoll
  clock : host.clock.longest ≠ some 0

namespace Paced

theorem span_pos (hw : Paced w host) {d : Duration} (hd : Duration.ofMillis 1 ≤ d) :
    0 < host.clock.span d :=
  Routine.Clock.span_pos hw.clock (Nat.lt_of_lt_of_le (by decide) hd)

end Paced

theorem tasked_spawned (hw : Paced w host) {world : World activities} (hnow : world.now ≤ bound) :
    Tasked host bound world (.active w.plan.run)
      (.active (Activity.watch w.network w.config.watch)) { task := .watch } where
  generates := Activity.Plan.keeps_run_timely (fit_plan w) hw.clock (hw.span_pos hw.startup) hnow
  watches := Activity.keeps_watch _ (hw.span_pos hw.poll) (hw.span_pos hw.recovery) hnow
  interruptible := Activity.interruptible_watch _ _
  rests := fun h => by cases h
  ends := fun h => by cases h

/-! ## Steps -/

theorem Concluding.next (hx : Concluding w host x) (h : x.step w host = some y) :
    Concluding w host y := by
  rcases hx with ⟨n, world, count, watch, hquits, hcancelled, rfl⟩
  refine ⟨n + 1, world, count, watch, hquits, hcancelled, ?_⟩
  rw [run_add, run_one h]
  rfl

/-- The generation ends with a number, in a cancelled run. -/
theorem Tasked.outcome {world : World activities} {generation : Strand activities Nat}
    {watch : Strand activities Unit} {turn : Turn} {outcome : Except Error Nat}
    (h : Tasked host bound world generation watch turn) (ho : outcome? generation = some outcome) :
    world.cancelled = true ∧ watch.Quits False ∧ ∃ count, outcome = .ok count := by
  have hgenerates := h.generates
  rcases outcome_cases ho with ⟨count, rfl, rfl⟩ | ⟨cause, rfl, -⟩
  · exact ⟨hgenerates world (.refl world), h.rests (h.ends rfl), count, rfl⟩
  · exact hgenerates.elim

theorem Tasked.next {world : World activities} {generation : Strand activities Nat}
    {watch : Strand activities Unit} {turn : Turn}
    (h : Tasked host bound world generation watch turn) (hover : generation.isOver = false)
    (hs : Proceeds host world generation watch turn y) (hy : y.world.now ≤ bound) :
    Orderly w host bound y := by
  cases hs with
  | generation hs hturn ht =>
      have helapses := (Strand.elapses_of_advance bound hs).1
      refine .working ⟨(Strand.keeps_of_advance h.generates hs).2,
        Strand.keeps_of_rely h.watches helapses, h.interruptible, fun _ => ?_, fun _ => ht⟩
      -- The watch had its turn before, or gave way, or could not go on: it rests in each case.
      rcases hturn with hturn | hcheckpoint | hstuck
      · exact h.rests hturn
      · exact Strand.quits_of_atCheckpoint h.interruptible hcheckpoint
      · exact Strand.quits_of_advance_eq_none h.interruptible hstuck
  | watch hs ht =>
      have helapses := (Strand.elapses_of_advance bound hs).1
      refine .working ⟨Strand.keeps_of_rely h.generates helapses,
        (Strand.keeps_of_advance h.watches hs).2,
        Strand.interruptible_of_advance h.interruptible hs, fun hg => ?_, fun hend => ?_⟩
      · rw [ht] at hg
        cases hg
      · rw [hover] at hend
        cases hend
  | pass hg hw hm =>
      have helapses : World.Elapses bound world (world.passTo host _) :=
        ⟨le_of_pass hg hw hm, fun _ => hy, world.cancelled_passTo host _⟩
      refine .working ⟨Strand.keeps_of_rely h.generates helapses,
        Strand.keeps_of_rely h.watches helapses, h.interruptible,
        fun _ => Strand.quits_of_advance_eq_none h.interruptible hw, fun hend => ?_⟩
      rw [hover] at hend
      cases hend

/-- The banner of a run sends nothing. -/
theorem past_of_opening {world world' : World activities} {banner : Strand activities Unit}
    {n : Nat} (hrun : run w host (n + 1) (.opening world banner) = spawned w world')
    (hpast : world'.past = world.past) (h : step w host (.opening world banner) = some y) :
    y.world.past = world.past := by
  have hgrown := past_suffix_of_step h
  have hleft := past_suffix_run w host n y
  rw [← run_one h, hrun] at hleft
  exact (hgrown.eq_of_length_le (hpast ▸ hleft.length_le)).symm

/-- Every step keeps a run in good order, as long as time is within the bound. -/
theorem Orderly.next (hw : Paced w host) (hx : Orderly w host bound x)
    (h : x.step w host = some y) (hy : y.world.now ≤ bound) : Orderly w host bound y := by
  cases hx with
  | @opening world world' banner n hrun hpast =>
      -- The banner ends where it did before, with one step less to go.
      have hsent := past_of_opening hrun hpast h
      rw [run_one h] at hrun
      simp only [step] at h
      split at h
      · cases h
        cases n with
        | zero => cases hrun
        | succ n => exact .opening hrun (hpast.trans hsent.symm)
      · cases h
        exact .working (tasked_spawned hw hy)
  | @working world generation watch turn hx =>
      simp only [step] at h
      split at h
      · rename_i houtcome
        cases h
        rcases hx.outcome houtcome with ⟨hcancelled, hquits, count, rfl⟩
        exact .concluding ⟨0, _, count, _, hquits, hcancelled, rfl⟩
      · split at h
        · cases h
        · rename_i hover
          exact hx.next (Bool.eq_false_iff.2 hover) (proceeds_of_proceed h) hy
  | concluding hx => exact .concluding (hx.next h)

/-! ## After the cancellation -/

/-- A cancelled strand that keeps its pact can go on until it is over. -/
theorem exists_advance_of_keeps {α : Type} {s : Strand activities α}
    {Q : α → World activities → Prop} {world : World activities}
    (h : s.Keeps (timely host bound) Q world) (hover : s.isOver = false) :
    ∃ r, s.advance host true world = some r := by
  -- Its waits all race, and a cancelled race is lost at once.
  cases s with
  | active p =>
      cases p with
      | done a => cases hover
      | perform e next =>
          simp only [Strand.advance]
          split
          · exact ⟨_, rfl⟩
          · exact ⟨_, rfl⟩
          · exact ⟨_, rfl⟩
      | wait what next => exact h.elim
      | race what next =>
          simp only [Strand.advance]
          split
          · exact ⟨_, rfl⟩
          · exact ⟨_, rfl⟩
      | loop s body next => exact ⟨_, rfl⟩
  | blocked pending next => exact h.elim
  | contested pending next => exact ⟨_, rfl⟩
  | starved => cases hover
  | aborted cause => cases hover

namespace Concluding

theorem late (hx : Concluding w host x) : x.Late := by
  rcases hx with ⟨n, world, count, watch, -, -, rfl⟩
  have hlate : (Run.judging world (.active (verdict (.ok count))) watch).Late := trivial
  exact holds_run (fun _ _ => late_of_step) hlate n

theorem cancelled (hx : Concluding w host x) : x.world.cancelled = true := by
  rcases hx with ⟨n, world, count, watch, -, hcancelled, rfl⟩
  exact cancelled_run w host n hcancelled

/-- A run that is past its generation sends nothing more. -/
theorem past_of_step (hx : Concluding w host x) (h : x.step w host = some y) :
    y.world.past = x.world.past := by
  rcases hx with ⟨n, world, count, watch, hquits, -, rfl⟩
  generalize hz : Run.judging world (.active (verdict (.ok count))) watch = z at h
  rcases exists_run_concluded w host hquits world count with ⟨m, s, hresult, -, hpast⟩
  have hworld : z.world = world := congrArg Run.world hz.symm
  rw [hz] at hresult hpast
  -- Calls are only added, and there are no more of them in the end than now.
  have hsent : ∀ k, (run w host k z).world.past = world.past := by
    intro k
    have hgrown := past_suffix_run w host k z
    have hleft := past_suffix_run w host m (run w host k z)
    rw [run_run_of_step_eq_none (step_of_result hresult), hpast] at hleft
    rw [hworld] at hgrown
    exact hleft.eq_of_length_le hgrown.length_le
  rw [hsent n, ← hsent (n + 1), run_add, run_one h]
  rfl

end Concluding

/-- No time passes in a cancelled run. -/
theorem Orderly.now_eq (hx : Orderly w host bound x) (hcancelled : x.world.cancelled = true)
    (h : x.step w host = some y) : y.world.now = x.world.now := by
  have hshift := shifts_of_step h
  generalize y.world = world' at hshift
  cases hshift with
  | same => rfl
  | goes hs => exact (Strand.elapses_of_advance 0 hs).2
  | passes hg hover hw hm =>
      cases hx with
      | working hx =>
          -- Time would pass only if the generation could not go on.
          rcases exists_advance_of_keeps hx.generates hover with ⟨r, hr⟩
          have htoken : World.cancelled _ = true := hcancelled
          rw [Run.world] at htoken
          rw [htoken, hr] at hg
          cases hg
      | concluding hx => exact hx.late.elim

/-! ## A run that is cancelled before it starts -/

/-- Whether a cancelled run only finds that out. -/
def Idle : Run → Prop
  | .working _ generation watch _ => generation.Quits True ∧ watch.Quits True
  | _ => True

theorem Orderly.idle (hx : Orderly w host bound x) (hcancelled : x.world.cancelled = true)
    (hidle : x.Idle) (h : x.step w host = some y) :
    y.Idle ∧ y.world.past = x.world.past := by
  cases hx with
  | opening hrun hpast =>
      refine ⟨?_, past_of_opening hrun hpast h⟩
      simp only [step] at h
      split at h
      · cases h
        exact trivial
      · cases h
        exact ⟨Activity.Plan.quits_run _, Activity.quits_watch _ _⟩
  | @working world generation watch turn hx =>
      -- Whichever task takes the step, it only finds the run cancelled.
      have htoken : world.cancelled = true := hcancelled
      simp only [step] at h
      split at h
      · cases h
        exact ⟨trivial, rfl⟩
      · split at h
        · cases h
        · cases proceeds_of_proceed h with
          | generation hs _ _ =>
              rw [htoken] at hs
              have hquits := Strand.quits_of_advance hidle.1 hs
              exact ⟨⟨hquits.1, hidle.2⟩, hquits.2.1⟩
          | watch hs _ =>
              rw [htoken] at hs
              have hquits := Strand.quits_of_advance hidle.2 hs
              exact ⟨⟨hidle.1, hquits.1⟩, hquits.2.1⟩
          | pass _ _ _ => exact ⟨hidle, rfl⟩
  | concluding hx =>
      have hlate := (hx.next h).late
      refine ⟨?_, hx.past_of_step h⟩
      cases y with
      | working world generation watch turn => exact hlate.elim
      | opening world banner => exact trivial
      | judging world line watch => exact trivial
      | stopping world watch => exact trivial
      | closing world last => exact trivial

/-! ## Runs -/

theorem Orderly.run (hw : Paced w host) (hx : Orderly w host bound x) (n : Nat)
    (hn : (Run.run w host n x).world.now ≤ bound) : Orderly w host bound (Run.run w host n x) :=
  holds_run_until (fun _ _ hx hs hy => hx.next hw hs hy) n hx hn

theorem Orderly.tasked {world : World activities} {generation : Strand activities Nat}
    {watch : Strand activities Unit} {turn : Turn}
    (hx : Orderly w host bound (.working world generation watch turn)) :
    Tasked host bound world generation watch turn := by
  cases hx with
  | working hx => exact hx
  | concluding hx => exact hx.late.elim

/-- A run in good order that returns a snapshot is closed, and the number that it writes is the one
that its generation has told. -/
theorem Orderly.closed (hw : Paced w host) (hx : Orderly w host bound x) (hearly : ¬ x.Late)
    {n : Nat} {s : Stats.Snapshot} (hn : (Run.run w host n x).world.now ≤ bound)
    (hs : (Run.run w host n x).result? = some s) :
    ∃ count, (Run.run w host n x).Closed host count s ∧
      ∃ k < n, (Run.run w host k x).generated? = some count := by
  rcases exists_judged hearly (late_of_result hs) with
    ⟨k, hk, world, generation, watch, turn, outcome, hbefore, houtcome, hjudged⟩
  have hnow : (Run.run w host k x).world.now ≤ bound := by
    refine Nat.le_trans ?_ hn
    rw [← Nat.add_sub_of_le (Nat.le_of_lt hk), run_add]
    exact le_run w host _ _
  -- The generation ends in good order, so it tells a number and the watch rests.
  have horderly := hx.run hw k hnow
  rw [hbefore] at horderly
  rcases horderly.tasked.outcome houtcome with ⟨-, hquits, count, rfl⟩
  rcases exists_run_concluded w host hquits world count with ⟨m, s', hresult, hclosed, -⟩
  refine ⟨count, ?_, k, hk, ?_⟩
  · -- A run that has returned stands still, so the two ends are the same.
    rw [← hjudged, ← run_add] at hresult hclosed
    have hsame := run_eq_of_step_eq_none (step_of_result hs) (step_of_result hresult)
    rw [← hsame] at hresult hclosed
    cases hs.symm.trans hresult
    exact hclosed
  · rcases outcome_cases houtcome with ⟨sent, rfl, hcount⟩ | ⟨cause, -, herror⟩
    · cases hcount
      rw [hbefore]
      rfl
    · cases herror

/-- Whether a run in good order is cancelled, and stands at a moment. -/
structure Still (w : Workload) (host : Host activities) (moment : Nat) (x : Run) : Prop where
  orderly : Orderly w host moment x
  cancelled : x.world.cancelled = true
  now : x.world.now = moment

theorem Still.next (hw : Paced w host) {moment : Nat} (hx : Still w host moment x)
    (h : x.step w host = some y) : Still w host moment y := by
  have hnow := (hx.orderly.now_eq hx.cancelled h).trans hx.now
  exact ⟨hx.orderly.next hw h (Nat.le_of_eq hnow), cancelled_of_step h hx.cancelled, hnow⟩

/-- Whether a run that was cancelled before it started has sent nothing since. -/
structure Silent (w : Workload) (host : Host activities) (bound : Nat)
    (past : List activities.Request) (x : Run) : Prop where
  orderly : Orderly w host bound x
  cancelled : x.world.cancelled = true
  idle : x.Idle
  past : x.world.past = past

theorem Silent.next (hw : Paced w host) {past : List activities.Request}
    (hx : Silent w host bound past x) (h : x.step w host = some y) (hy : y.world.now ≤ bound) :
    Silent w host bound past y := by
  rcases hx.orderly.idle hx.cancelled hx.idle h with ⟨hidle, hpast⟩
  exact ⟨hx.orderly.next hw h hy, cancelled_of_step h hx.cancelled, hidle, hpast.trans hx.past⟩

theorem Silent.run (hw : Paced w host) {past : List activities.Request}
    (hx : Silent w host bound past x) (n : Nat) (hn : (Run.run w host n x).world.now ≤ bound) :
    Silent w host bound past (Run.run w host n x) :=
  holds_run_until (fun _ _ hx h hy => hx.next hw h hy) n hx hn

end Run

/-- The moment at which the token of a run becomes cancelled. -/
def CancelledAt (w : Workload) (host : Host activities) (x : Run) (moment : Nat) : Prop :=
  ∃ n, (Run.run w host n x).world.cancelled = true ∧ (Run.run w host n x).world.now = moment ∧
    ∀ k < n, (Run.run w host k x).world.cancelled = false

namespace CancelledAt

variable {w : Workload} {host : Host activities} {x : Run} {moment : Nat}

open Run (Orderly Paced)

/-- From its cancellation on a run stands still in time. -/
theorem now_after (hw : Paced w host) (hx : Orderly w host moment x) {n : Nat}
    (hcancelled : (Run.run w host n x).world.cancelled = true)
    (hnow : (Run.run w host n x).world.now = moment) (k : Nat) :
    (Run.run w host (n + k) x).world.now = moment := by
  have hstill : Run.Still w host moment (Run.run w host n x) :=
    ⟨hx.run hw n (Nat.le_of_eq hnow), hcancelled, hnow⟩
  rw [Run.run_add]
  exact (Run.holds_run (fun _ _ hy h => hy.next hw h) hstill k).now

/-- No step of a run comes later than its cancellation. -/
theorem now_le (hw : Paced w host) (hx : Orderly w host moment x)
    (h : CancelledAt w host x moment) (n : Nat) : (Run.run w host n x).world.now ≤ moment := by
  rcases h with ⟨m, hcancelled, hnow, -⟩
  rcases Nat.le_total n m with hle | hle
  · rcases Nat.exists_eq_add_of_le hle with ⟨k, rfl⟩
    rw [← hnow, Run.run_add]
    exact Run.le_run w host k _
  · rcases Nat.exists_eq_add_of_le hle with ⟨k, rfl⟩
    exact Nat.le_of_eq (now_after hw hx hcancelled hnow k)

/-- A run that has returned a snapshot took the time up to its cancellation. -/
theorem now_eq (hw : Paced w host) (hx : Orderly w host moment x)
    (h : CancelledAt w host x moment) {n : Nat} {s : Stats.Snapshot}
    (hs : (Run.run w host n x).result? = some s) : (Run.run w host n x).world.now = moment := by
  rcases h with ⟨m, hcancelled, hnow, -⟩
  have hafter := now_after hw hx hcancelled hnow n
  rwa [Nat.add_comm, Run.run_add, Run.run_of_step_eq_none (Run.step_of_result hs)] at hafter

end CancelledAt

end Workload
end TxWorkload
