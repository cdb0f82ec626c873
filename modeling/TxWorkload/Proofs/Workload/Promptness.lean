import TxWorkload.Proofs.Workload.Termination

/-!
# Promptness — a run returns at the moment at which it is cancelled

A run that is launched in good order takes no step after its cancellation, and the last lines and
the snapshot are those of a closed run. If its words come from a stream that serves its draws, it
does return once it is cancelled; and if it is to be cancelled from outside, it is cancelled by
then.
-/

namespace TxWorkload
namespace Workload

open TxWorkload.Random (excerpt)
open Routine (Host Strand World)

namespace Run

variable {w : Workload} {host : Host activities} {bound : Nat} {x y : Run}

/-! ## Standing still -/

theorem advance_of_atCheckpoint {α : Type} {s : Strand activities α} {world : World activities}
    {token : Bool} (h : s.atCheckpoint = true) : s.advance host token world ≠ none := by
  unfold Strand.atCheckpoint at h
  split at h
  · intro hnone
    cases hnone
  · cases h

/-- If a run stands still, so do both of its tasks, and nothing is ahead. -/
theorem advance_of_proceed_eq_none {world : World activities} {generation : Strand activities Nat}
    {watch : Strand activities Unit} {turn : Turn}
    (h : proceed host world generation watch turn = none) :
    generation.advance host world.cancelled world = none ∧
      pass host world generation watch = none := by
  unfold proceed at h
  simp only [Option.orElse_eq_orElse, Option.orElse_eq_or] at h
  split at h
  · rename_i hused
    -- A task at a checkpoint can go on, so a used-up turn always has a successor.
    have hcheckpoint := (Bool.and_eq_true_iff.1 hused).2
    have hnone := stepOf_eq_none (Option.or_eq_none_iff.1 h).2
    dsimp only at hnone
    cases htask : turn.task with
    | generation =>
        rw [htask] at hnone hcheckpoint
        exact absurd hnone (advance_of_atCheckpoint hcheckpoint)
    | watch =>
        rw [htask] at hnone hcheckpoint
        exact absurd hnone (advance_of_atCheckpoint hcheckpoint)
  · rcases Option.or_eq_none_iff.1 h with ⟨hgo, h⟩
    rcases Option.or_eq_none_iff.1 h with ⟨hother, hpass⟩
    have hgo := stepOf_eq_none hgo
    have hother := stepOf_eq_none hother
    refine ⟨?_, hpass⟩
    cases htask : turn.task with
    | generation =>
        rw [htask] at hgo
        exact hgo
    | watch =>
        rw [htask] at hother
        exact hother

/-- If time cannot pass, the run will not be cancelled from outside any more. -/
theorem cancelAt_of_pass_eq_none {world : World activities} {generation : Strand activities Nat}
    {watch : Strand activities Unit} (h : pass host world generation watch = none)
    (hactive : world.cancelled = false) : host.cancelAt = none := by
  have hnext := Option.map_eq_none_iff.1 h
  unfold World.nextMoment at hnext
  rw [hactive, List.min?_eq_none_iff] at hnext
  cases hcancel : host.cancelAt with
  | none => rfl
  | some t => simp [hcancel] at hnext

/-- A run in good order that cannot go on is past its generation, or has run out of words, or waits
for what never comes. -/
theorem Orderly.stuck (hx : Orderly w host bound x) (h : x.step w host = none)
    (hfed : x.isStarved = false) :
    x.Late ∨ x.world.cancelled = false ∧ host.cancelAt = none := by
  cases hx with
  | opening hrun hpast =>
      simp only [step] at h
      split at h <;> cases h
  | @working world generation watch turn hx =>
      refine .inr ?_
      have hgenerating := (isStarved_eq_false.1 hfed).1
      simp only [step] at h
      split at h
      · cases h
      · rename_i houtcome
        split at h
        · rename_i hover
          -- A generation that is over has an outcome, unless it has run out of words.
          unfold Strand.isOver at hover
          split at hover
          · cases houtcome
          · cases hgenerating
          · cases houtcome
          · cases hover
        · rename_i hover
          rcases advance_of_proceed_eq_none h with ⟨hstuck, hpass⟩
          have hactive : world.cancelled = false := by
            cases hcancelled : world.cancelled with
            | false => rfl
            | true =>
                -- A cancelled generation could go on.
                rcases exists_advance_of_keeps hx.generates (Bool.eq_false_iff.2 hover) with ⟨r, hr⟩
                rw [hcancelled, hr] at hstuck
                cases hstuck
          exact ⟨hactive, cancelAt_of_pass_eq_none hpass hactive⟩
  | concluding hx => exact .inl hx.late

/-- A run that is past its generation comes to its end. -/
theorem Concluding.exists_result (hx : Concluding w host x) :
    ∃ n s, (run w host n x).result? = some s := by
  rcases hx with ⟨n, world, count, watch, hquits, -, rfl⟩
  rcases exists_run_concluded w host hquits world count with
    ⟨m, s, hresult, -, -⟩
  refine ⟨m, s, ?_⟩
  rw [run_run_of_step_eq_none (step_of_result hresult)]
  exact hresult

end Run

/-! ## Launching -/

/-- A run that is about to start with counters from before, the words that are left, and a token
that may be cancelled already. -/
def launch (w : Workload) (c : Stats.Counters) (supply : Random.Supply) (cancelled : Bool) : Run :=
  w.start { counters := c, supply, cancelled }

/-- The world of a run that has written its banner. -/
def announced (w : Workload) (host : Host activities) (world : World activities) :
    World activities :=
  (Run.run w host 4 (w.start world)).world

open Run

variable {w : Workload} {host : Host activities} {bound : Nat} {c : Stats.Counters}
  {cancelled : Bool}

theorem run_start (world : World activities) :
    Run.run w host 4 (w.start world) = spawned w (w.announced host world) :=
  rfl

theorem orderly_launch (supply : Random.Supply) :
    Orderly w host bound (w.launch c supply cancelled) :=
  .opening (run_start _) rfl

theorem recorded_launch (supply : Random.Supply) :
    (w.launch c supply cancelled).world.Recorded := by
  intro e he
  cases he

/-- Whether the draws of a workload end on a stream of words, wherever they begin. -/
structure Served (w : Workload) (σ : Nat → UInt64) : Prop where
  generate : ∀ start, ∃ n, w.plan.generator.generate (excerpt σ start n) ≠ .dry
  roll : ∀ b, w.plan.bursts = some b →
    ∀ start, ∃ n, Activity.Burst.roll b (excerpt σ start n) ≠ .dry

variable {σ : Nat → UInt64}

theorem Served.fed (hσ : w.Served σ) : w.plan.Fed σ where
  generate := ⟨w.plan.generator.steady_generate, hσ.generate⟩
  roll := fun b hb => ⟨fit_plan w b hb, hσ.roll b hb⟩

/-- A stretch of a stream that serves a workload is enough for a run to settle. -/
theorem exists_settled_launch (hw : Paced w host) (hσ : w.Served σ) (c : Stats.Counters)
    (cancelled : Bool) (bound : Nat) :
    ∃ m, ∀ rest, ∃ n, Settled w host bound
      (Run.run w host n (w.launch c (excerpt σ 0 m ++ rest) cancelled)) := by
  -- The tasks start after the four steps of the banner, none of which takes a word.
  let world := w.announced host { counters := c, cancelled }
  have htasked : Tasked host bound world _ _ _ := tasked_spawned hw (Nat.zero_le bound)
  have hacc : Acc (Descends w host bound) (spawned w world) :=
    acc_descends (Strand.acc_of_keeps trivial htasked.generates)
      (Strand.acc_of_keeps trivial htasked.watches)
      (.refl world) (.refl world)
  have hnourished : (spawned w world).Nourished σ 0 :=
    .working (Activity.Plan.within_run_fed hσ.fed)
      (Activity.within_fed (Activity.within_watch (Activity.awaits_bystander trivial) _ _))
      ⟨rfl, rfl⟩ ⟨0, 0, rfl, rfl⟩
  rcases exists_settled hacc hnourished with ⟨m, hm⟩
  refine ⟨m, fun rest => ?_⟩
  rcases hm rest with ⟨n, hn⟩
  refine ⟨4 + n, ?_⟩
  rw [run_add, launch, run_start]
  exact hn

/-! ## Returning -/

/-- A run in good order that is past its generation comes to its end. -/
theorem Run.Orderly.exists_result {x : Run} (hx : Orderly w host bound x) (hlate : x.Late) :
    x.world.cancelled = true ∧ ∃ n s, (Run.run w host n x).result? = some s := by
  cases hx with
  | opening hrun hpast => exact hlate.elim
  | working hx => exact hlate.elim
  | concluding hx => exact ⟨hx.cancelled, hx.exists_result⟩

namespace CancelledAt

variable {x : Run} {moment : Nat}

/-- A run that stands still is cancelled if it ever is. -/
theorem of_stuck (h : CancelledAt w host x moment) {n : Nat}
    (hstuck : (Run.run w host n x).step w host = none) :
    (Run.run w host n x).world.cancelled = true := by
  rcases h with ⟨m, hcancelled, -, -⟩
  -- A cancellation after the last step would come in the very state in which the run stands.
  have hlater := cancelled_run w host n hcancelled
  rwa [run_run_of_step_eq_none hstuck] at hlater

/-- A run that settles after its cancellation returns. -/
theorem exists_result (hw : Paced w host) (hx : Orderly w host moment x)
    (h : CancelledAt w host x moment) (hmoment : moment ≤ bound) {n : Nat}
    (hn : Settled w host bound (Run.run w host n x)) :
    ∃ n s, (Run.run w host n x).result? = some s := by
  have hnow := h.now_le hw hx n
  have horderly := hx.run hw n hnow
  -- Beyond the bound it is too late, and a cancelled run does not wait.
  have hlate : (Run.run w host n x).Late := by
    rcases hn with hbeyond | hlate | ⟨hstuck, hfed⟩
    · exact absurd (Nat.le_trans hnow hmoment) (Nat.not_le.2 hbeyond)
    · exact hlate
    · refine (horderly.stuck hstuck hfed).resolve_right ?_
      rintro ⟨hactive, -⟩
      rw [h.of_stuck hstuck] at hactive
      cases hactive
  rcases (horderly.exists_result hlate).2 with ⟨k, s, hs⟩
  refine ⟨n + k, s, ?_⟩
  rwa [run_add]

end CancelledAt

/-! ## Cancellation from outside -/

/-- Until it is cancelled, a run does not pass the moment at which that happens. -/
theorem Run.le_cancelAt_of_step {x y : Run} {moment : Nat} (hcancel : host.cancelAt = some moment)
    (hnow : x.world.now ≤ moment) (hactive : x.world.cancelled = false)
    (h : x.step w host = some y) : y.world.now ≤ moment := by
  have hshift := shifts_of_step h
  generalize y.world = world' at hshift
  cases hshift with
  | same => exact hnow
  | goes hs => exact Nat.le_trans (Nat.le_of_eq (Strand.elapses_of_advance 0 hs).2) hnow
  | @passes world generation watch turn next _ _ _ hm =>
      have hactive : world.cancelled = false := hactive
      -- Among the moments to which time may pass is that of the cancellation.
      have hleast := (List.min?_eq_some_iff.1 hm).2 (max world.now moment)
        (by simp [hactive, hcancel])
      exact Nat.le_trans hleast (Nat.max_le.2 ⟨hnow, Nat.le_refl _⟩)

/-- Up to any step a run has been cancelled in time, or it is still before that moment. -/
theorem cancelledAt_or {x : Run} {moment : Nat} (hcancel : host.cancelAt = some moment)
    (hnow : x.world.now ≤ moment) (n : Nat) :
    (∃ t ≤ moment, CancelledAt w host x t) ∨ (Run.run w host n x).world.now ≤ moment ∧
      ∀ k ≤ n, (Run.run w host k x).world.cancelled = false := by
  -- The step that cancels the run is the first one after which it is cancelled.
  have hfirst : ∀ n, (Run.run w host n x).world.now ≤ moment →
      (∀ k < n, (Run.run w host k x).world.cancelled = false) →
      (∃ t ≤ moment, CancelledAt w host x t) ∨ (Run.run w host n x).world.now ≤ moment ∧
        ∀ k ≤ n, (Run.run w host k x).world.cancelled = false := by
    intro n hle hbefore
    cases hcancelled : (Run.run w host n x).world.cancelled with
    | true => exact .inl ⟨_, hle, n, hcancelled, rfl, hbefore⟩
    | false =>
        refine .inr ⟨hle, fun k hk => ?_⟩
        rcases Nat.lt_or_eq_of_le hk with hk | rfl
        · exact hbefore k hk
        · exact hcancelled
  induction n with
  | zero => exact hfirst 0 hnow fun k hk => absurd hk (Nat.not_lt_zero k)
  | succ n ih =>
      rcases ih with hdone | ⟨hle, hbefore⟩
      · exact .inl hdone
      · refine hfirst (n + 1) ?_ fun k hk => hbefore k (Nat.le_of_lt_succ hk)
        rw [run_add]
        cases h : (Run.run w host n x).step w host with
        | none => rwa [run_of_step_eq_none h]
        | some y =>
            rw [run_one h]
            exact le_cancelAt_of_step hcancel hle (hbefore n (Nat.le_refl n)) h

/-- A run that is to be cancelled from outside is cancelled by then, if it settles. -/
theorem exists_cancelledAt (hw : Paced w host) {x : Run} {moment : Nat}
    (hx : Orderly w host moment x) (hcancel : host.cancelAt = some moment)
    (hnow : x.world.now ≤ moment) {n : Nat} (hn : Settled w host moment (Run.run w host n x)) :
    ∃ t ≤ moment, CancelledAt w host x t := by
  refine (cancelledAt_or hcancel hnow n).resolve_right ?_
  -- Otherwise the run would have settled before its cancellation.
  rintro ⟨hle, hactive⟩
  have horderly := hx.run hw n hle
  have hearly : ¬ (Run.run w host n x).Late := by
    intro hlate
    have hcancelled := (horderly.exists_result hlate).1
    rw [hactive n (Nat.le_refl n)] at hcancelled
    cases hcancelled
  rcases hn with hbeyond | hlate | ⟨hstuck, hfed⟩
  · exact Nat.not_le.2 hbeyond hle
  · exact hearly hlate
  · rcases horderly.stuck hstuck hfed with hlate | ⟨-, hnever⟩
    · exact hearly hlate
    · rw [hcancel] at hnever
      cases hnever

/-! ## Prompt shutdown -/

/-- A run that is cancelled at some moment does nothing later, and it sends nothing at all if it was
cancelled before it started; when it returns, it took the time up to that moment, and its last lines
tell the number of transactions that its generation has counted, the counters of the snapshot, and
that it has stopped. If its words come from a stream that serves its draws, it does return, and a
cancellation from outside does come. -/
theorem shuts_down_promptly (w : Workload) (host : Host activities) (hw : Paced w host)
    (c : Stats.Counters) (cancelled : Bool) :
    (∀ supply moment, CancelledAt w host (w.launch c supply cancelled) moment →
      (cancelled = true → moment = 0) ∧
      ∀ n, let x := Run.run w host n (w.launch c supply cancelled)
        x.world.now ≤ moment ∧ (∀ e ∈ x.world.journal, e.time ≤ moment) ∧
        (cancelled = true → x.world.past = []) ∧
        ∀ s, x.result? = some s → x.world.now = moment ∧ ∃ count, x.Closed host count s ∧
          ∃ k < n, (Run.run w host k (w.launch c supply cancelled)).generated? = some count) ∧
    ∀ σ, w.Served σ →
      (∀ bound, ∃ m, ∀ rest moment, moment ≤ bound →
        let x := w.launch c (excerpt σ 0 m ++ rest) cancelled
        CancelledAt w host x moment → ∃ n s, (Run.run w host n x).result? = some s) ∧
      ∀ moment, host.cancelAt = some moment →
        ∃ m, ∀ rest, ∃ t ≤ moment,
          CancelledAt w host (w.launch c (excerpt σ 0 m ++ rest) cancelled) t := by
  refine ⟨?_, ?_⟩
  · intro supply moment h
    have hx : Orderly w host moment (w.launch c supply cancelled) := orderly_launch supply
    -- The first state is cancelled already, so no later one is the first.
    have hmoment : cancelled = true → moment = 0 := by
      intro hcancelled
      rcases h with ⟨n, -, rfl, hbefore⟩
      cases n with
      | zero => rfl
      | succ n =>
          have hactive : cancelled = false := hbefore 0 (Nat.zero_lt_succ n)
          rw [hactive] at hcancelled
          cases hcancelled
    refine ⟨hmoment, fun n => ?_⟩
    have hnow := h.now_le hw hx n
    refine ⟨hnow, fun e he => ?_, fun hcancelled => ?_, fun s hs => ?_⟩
    · exact Nat.le_trans (recorded_run n (recorded_launch supply) e he) hnow
    · have hsilent : Silent w host moment [] (w.launch c supply cancelled) :=
        ⟨hx, hcancelled, trivial, rfl⟩
      exact (hsilent.run hw n hnow).past
    · exact ⟨h.now_eq hw hx hs, hx.closed hw id hnow hs⟩
  -- The run settles by any bound, and a run that settles after its cancellation returns.
  · intro σ hσ
    refine ⟨fun bound => ?_, fun moment hcancel => ?_⟩
    · rcases exists_settled_launch hw hσ c cancelled bound with ⟨m, hm⟩
      refine ⟨m, fun rest moment hmoment h => ?_⟩
      rcases hm rest with ⟨n, hn⟩
      exact h.exists_result hw (orderly_launch _) hmoment hn
    · rcases exists_settled_launch hw hσ c cancelled moment with ⟨m, hm⟩
      refine ⟨m, fun rest => ?_⟩
      rcases hm rest with ⟨n, hn⟩
      exact exists_cancelledAt hw (orderly_launch _) hcancel (Nat.zero_le moment) hn

/-- A run of the default workload on words that alternate, cancelled from outside after a second,
returns by then with its last lines. -/
theorem shuts_down_promptly_after_a_second :
    let w : Workload := ⟨{}, .development, by decide⟩
    let host : Host activities :=
      { transport := fun _ _ => { answer := some {} }, cancelAt := some 1000000000 }
    let words : Nat → UInt64 := fun n => if n % 2 = 0 then 0 else 9223372036854775808
    Paced w host ∧ w.Served words ∧ ∃ m moment n s, moment ≤ 1000000000 ∧
      CancelledAt w host (w.launch {} (excerpt words 0 m) false) moment ∧
      let x := Run.run w host n (w.launch {} (excerpt words 0 m) false)
      x.result? = some s ∧ x.world.now = moment ∧ ∃ count, x.Closed host count s ∧
        ∃ k < n, (Run.run w host k (w.launch {} (excerpt words 0 m) false)).generated? =
          some count := by
  intro w host words
  have hw : Paced w host := ⟨by decide, by decide, by decide, by decide⟩
  -- The words of the two kinds of places are the same from either place of the kind on.
  have hwords : ∀ start, excerpt words start 6 = excerpt words 0 6 ∨
      excerpt words start 6 = excerpt words 1 6 := by
    intro start
    rcases Nat.mod_two_eq_zero_or_one start with heven | hodd
    · exact .inl (by simp [excerpt, words, Nat.add_mod, heven])
    · exact .inr (by simp [excerpt, words, Nat.add_mod, hodd])
  have hserved : w.Served words := by
    refine ⟨fun start => ⟨6, ?_⟩, fun b hb start => ⟨6, ?_⟩⟩
    · rcases hwords start with h | h
      · rw [h]
        decide +kernel
      · rw [h]
        decide +kernel
    · cases hb
      rcases hwords start with h | h
      · rw [h]
        decide +kernel
      · rw [h]
        decide +kernel
  refine ⟨hw, hserved, ?_⟩
  rcases shuts_down_promptly w host hw {} false with ⟨hsilent, hreturns⟩
  rcases hreturns words hserved with ⟨hresult, hcancelled⟩
  rcases hcancelled 1000000000 rfl with ⟨m, hm⟩
  rcases hresult 1000000000 with ⟨k, hk⟩
  -- As many words are enough for the cancellation, and for the return.
  rcases hm (excerpt words m k) with ⟨moment, hle, h⟩
  have hsplit : excerpt words 0 m ++ excerpt words m k =
      excerpt words 0 k ++ excerpt words k m := by
    calc excerpt words 0 m ++ excerpt words m k
        = excerpt words 0 (m + k) := by rw [Random.excerpt_add, Nat.zero_add]
      _ = excerpt words 0 (k + m) := by rw [Nat.add_comm]
      _ = excerpt words 0 k ++ excerpt words k m := by rw [Random.excerpt_add, Nat.zero_add]
  rcases hk (excerpt words k m) moment hle (hsplit ▸ h) with ⟨n, s, hs⟩
  rw [← hsplit] at hs
  have hend := ((hsilent _ moment h).2 n).2.2.2 s hs
  refine ⟨m + k, moment, n, s, hle, ?_⟩
  rw [Random.excerpt_add, Nat.zero_add]
  exact ⟨h, hs, hend⟩

end Workload
end TxWorkload
