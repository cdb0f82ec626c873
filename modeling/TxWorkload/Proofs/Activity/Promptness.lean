import TxWorkload.Proofs.Activity.Bystander
import TxWorkload.Proofs.Activity.Pause
import TxWorkload.Proofs.Activity.Submission
import TxWorkload.Proofs.Routine.Deadline

/-!
# Promptness — the generation and the watch end once the run is cancelled

Every turn of the generation and of the watch sleeps for some time, unless the run is cancelled,
and every turn of a burst sends a transaction. So both tasks end in time, whatever the nodes answer
and however long they take. The generation leaves a cancelled run behind: it does not end for any
other reason.
-/

namespace TxWorkload
namespace Activity

open Routine
open Routine (Effect Host World CutShort Onward)

/-! ## Brief activities -/

section

variable {unraced : Prop} {α : Type}

theorem within_brief {p : Activity α} (hp : p.Within (bystander { unraced, draws := True })) :
    p.Within (brief unraced) :=
  within_mono hp (fun _ he _ _ _ _ => perform_ne_aborted he) (fun _ _ _ h => h) id

theorem within_marking (m : Milestone) : (mark m : Activity Unit).Within (brief unraced) := by
  refine ⟨?_, fun _ => trivial⟩
  intro host token w cause h
  cases h

theorem submits_brief : Submits (brief unraced) where
  total := fun _ _ _ _ h => by cases h
  successful := fun _ _ _ _ h => by cases h
  failed := fun _ _ _ _ h => by cases h
  log := fun _ _ _ _ _ _ h => by cases h
  submitting := fun _ _ _ _ h => by cases h
  submitted := fun _ _ _ _ _ h => by cases h
  checkpoint := fun _ _ _ _ h => by cases h
  ask := fun _ => .inl rfl

end

/-! ## Turns -/

variable {host : Host activities} {bound : Nat} {before w w' : World activities}

/-- What a bystander does ends in time. -/
theorem keeps_bystanding {α : Type} {p : Activity α} (hp : p.Within (bystander { draws := True })) :
    p.Keeps (timely host bound) (fun _ => World.Elapses bound w) w :=
  keeps_brief (within_brief hp)

/-- A turn that sleeps in the end took time, or found the run cancelled. -/
theorem keeps_slept {β σ : Type} {s : σ} {b : β} {Q : β → World activities → Prop} {token : Bool}
    (hw : World.Elapses bound before w) (hslept : Slept bound w token w')
    (hQ : ∀ w, World.Elapses bound before w → w.cancelled = true → Q b w) :
    (if token = true then pure (.inr b) else pure (.inl s) : Activity (σ ⊕ β)).Keeps
      (timely host bound) (Onward bound Q before) w' := by
  rcases hslept with ⟨hw', hend⟩
  cases token with
  | true =>
      exact keeps_answer fun w'' hr => hQ w'' ((hw.trans hw').trans hr) (hr.cancelled hend)
  | false =>
      refine keeps_answer fun w'' hr => ⟨(hw.trans hw').trans hr, ?_⟩
      calc before.now ≤ w.now := hw.later
        _ < w'.now := hend
        _ ≤ w''.now := hr.later

/-! ## The watch -/

theorem keeps_record {c : Config.Watch} (hpoll : 0 < host.clock.span c.poll)
    (hrecovery : 0 < host.clock.span c.recovery) (outcome : Except Error Report) :
    (record c outcome).Keeps (timely host bound)
      (fun pause w' => World.Elapses bound w w' ∧ 0 < host.clock.span pause) w := by
  cases outcome with
  | error cause =>
      refine keeps_bind (keeps_bystanding (within_log _ _)) ?_
      intro _ w₁ hw₁
      exact keeps_answer fun _ hr => ⟨hw₁.trans hr, hpoll⟩
  | ok r =>
      have hpause : 0 < host.clock.span (pauseAfter c r) := by
        unfold pauseAfter
        split
        · exact hrecovery
        · exact hpoll
      -- The second line is written on the way to the same pause.
      have hwarn : ∀ {w₁}, World.Elapses bound w w₁ → Routine.Keeps (timely host bound)
          (if r.allDown then do
            log .warn "⚠️  All endpoints down, waiting for recovery..."
            return pauseAfter c r
          else return pauseAfter c r : Activity Duration)
          (fun pause w' => World.Elapses bound w w' ∧ 0 < host.clock.span pause) w₁ := by
        intro w₁ hw₁
        split
        · refine keeps_bind (keeps_bystanding (within_log _ _)) ?_
          intro _ w₂ hw₂
          exact keeps_answer fun _ hr => ⟨(hw₁.trans hw₂).trans hr, hpause⟩
        · exact keeps_answer fun _ hr => ⟨hw₁.trans hr, hpause⟩
      unfold record
      dsimp only
      split
      · exact keeps_bind (keeps_bystanding (within_log _ _)) fun _ _ hw₁ => hwarn hw₁
      · exact hwarn (.refl w)

theorem keeps_watchTurn (n : Network) {c : Config.Watch} (hpoll : 0 < host.clock.span c.poll)
    (hrecovery : 0 < host.clock.span c.recovery) :
    (watchTurn n c).Keeps (timely host bound) (Onward bound (fun _ _ => True) w) w := by
  -- Only the sleep in the end takes time for certain; a cancelled poll ends the watch.
  refine keeps_bind keeps_isCancelled ?_
  intro token w₁ hw₁
  cases token with
  | true => exact keeps_answer fun _ _ => trivial
  | false =>
      have hpoll' := within_brief (within_poll (polls_bystander trivial) n)
      refine keeps_bind (keeps_untilCancelled hpoll') ?_
      intro answer w₂ hw₂
      cases answer with
      | none => exact keeps_answer fun _ _ => trivial
      | some outcome =>
          refine keeps_bind (keeps_record hpoll hrecovery outcome) ?_
          intro pause w₃ hw₃
          refine keeps_bind (keeps_sleepOrCancelled hw₃.2) ?_
          intro token w₄ hw₄
          exact keeps_slept ((hw₁.1.trans hw₂.1).trans hw₃.1) hw₄ fun _ _ _ => trivial

/-- The watch ends in time. -/
theorem keeps_watch (n : Network) {c : Config.Watch} (hpoll : 0 < host.clock.span c.poll)
    (hrecovery : 0 < host.clock.span c.recovery) (hw : w.now ≤ bound) :
    (watch n c).Keeps (timely host bound) (fun _ _ => True) w :=
  keeps_repeat hw fun _ _ _ => keeps_watchTurn n hpoll hrecovery

/-! ## Bursts -/

namespace Burst

/-- Every turn of a burst sends one more transaction, up to the size of the burst. -/
theorem keeps_turn_timely (b : Config.Bursts) (g : Transaction.Generator)
    (endpoints : List Endpoint) (size sent : Nat) :
    (turn b g endpoints size sent).Keeps (timely host bound) (fun turn w' =>
      World.Elapses bound w w' ∧ ∀ sent', turn = .inl sent' → sent < sent' ∧ sent' ≤ size) w := by
  -- After the last turn there is no next one, so nothing has to come closer to the size.
  have hlast : ∀ {sent'} {w₁}, World.Elapses bound w w₁ →
      (pure (.inr sent') : Activity (Nat ⊕ Nat)).Keeps (timely host bound) (fun turn w' =>
        World.Elapses bound w w' ∧ ∀ sent', turn = .inl sent' → sent < sent' ∧ sent' ≤ size) w₁ :=
    fun hw₁ => keeps_answer fun _ hr => ⟨hw₁.trans hr, fun _ h => by cases h⟩
  unfold turn
  split
  · rename_i hlt
    refine keeps_bind (keeps_bystanding within_isCancelled) ?_
    intro token w₁ hw₁
    cases token with
    | true => exact hlast hw₁
    | false =>
        refine keeps_bind (keeps_bystanding (within_draw trivial g.steady_generate))
          fun drawn w₂ hw₂ => ?_
        refine keeps_bind (keeps_brief (within_submit submits_brief endpoints drawn.1 _))
          fun _ w₃ hw₃ => ?_
        refine keeps_bind (keeps_bystanding (within_sleep b.pause)) ?_
        intro token w₄ hw₄
        have hw := ((hw₁.trans hw₂).trans hw₃).trans hw₄
        cases token with
        | true => exact hlast hw
        | false =>
            refine keeps_answer fun w₅ hr => ⟨hw.trans hr, ?_⟩
            intro sent' h
            cases h
            exact ⟨Nat.lt_succ_self sent, hlt⟩
  · exact hlast (.refl w)

/-- A burst ends in time, even if it does not pause. -/
theorem keeps_run_timely (b : Config.Bursts) (g : Transaction.Generator)
    (endpoints : List Endpoint) (size : Nat) :
    (run b g endpoints size).Keeps (timely host bound) (fun _ => World.Elapses bound w) w := by
  -- A pause may take no time, so the turns are bounded by what is left to send.
  have hwf : WellFounded fun x y : Nat × World activities => y.1 < x.1 ∧ x.1 ≤ size := by
    refine Subrelation.wf (fun {x y} h => ?_)
      (InvImage.wf (fun x : Nat × World activities => size - x.1) Nat.lt_wfRel.wf)
    exact Nat.sub_lt_sub_left (Nat.lt_of_lt_of_le h.1 h.2) h.1
  refine keeps_bind (keeps_bystanding (within_log _ _)) ?_
  intro _ w₁ hw₁
  refine keeps_bind (P := fun _ => World.Elapses bound w)
    (keeps_iterate (fun _ => World.Elapses bound w) _ (fun _ => hwf) (fun _ hr => hw₁.trans hr)
      fun sent w₂ hw₂ => ?_) fun sent w₂ hw₂ => ?_
  · refine keeps_mono (keeps_turn_timely b g endpoints size sent) ?_
    intro turn w₃ h
    have h := h w₃ (.refl w₃)
    cases turn with
    | inl sent' => exact ⟨hw₂.trans h.1, h.2 sent' rfl⟩
    | inr sent' => exact hw₂.trans h.1
  · refine keeps_bind (keeps_brief (within_marking _)) ?_
    intro _ w₃ hw₃
    exact keeps_answer fun _ hr => (hw₂.trans hw₃).trans hr

end Burst

/-! ## The generation -/

namespace Plan

variable {p : Plan}

/-- What the wait for the network leaves behind: if no node answered, the run is cancelled. -/
def Readied (bound : Nat) (ready : Bool) (w : World activities) : Prop :=
  w.now ≤ bound ∧ (ready = false → w.cancelled = true)

theorem keeps_readinessTurn (hstartup : 0 < host.clock.span p.startupPoll) (hw : w.now ≤ bound) :
    p.readinessTurn.Keeps (timely host bound) (Onward bound (Readied bound) w) w := by
  -- A turn that is the last one without an answer has found the run cancelled.
  have hstop : ∀ w', World.Elapses bound w w' → w'.cancelled = true → Readied bound false w' :=
    fun w' hw' hcancelled => ⟨hw'.inTime hw, fun _ => hcancelled⟩
  refine keeps_bind keeps_isCancelled ?_
  intro token w₁ hw₁
  cases token with
  | true =>
      exact keeps_answer fun w' hr => hstop w' (hw₁.1.trans hr) (hr.cancelled (hw₁.2 rfl))
  | false =>
      have hcheck : (check p.network).Within (bystander { unraced := True, draws := True }) :=
        within_check (polls_bystander trivial) (fun _ _ => trivial) p.network
      refine keeps_bind (keeps_untilCancelled (within_brief hcheck)) fun report w₂ hw₂ => ?_
      have hw₂' := hw₁.1.trans hw₂.1
      cases report with
      | none =>
          exact keeps_answer fun w' hr => hstop w' (hw₂'.trans hr) (hr.cancelled (hw₂.2 rfl))
      | some report =>
          change Routine.Keeps (timely host bound) (ite (report.anyUp = true) _ _) _ w₂
          split
          · refine keeps_bind (keeps_bystanding (within_log _ _)) ?_
            intro _ w₃ hw₃
            refine keeps_answer fun _ hr => ⟨((hw₂'.trans hw₃).trans hr).inTime hw, ?_⟩
            intro h
            cases h
          · refine keeps_bind (keeps_sleepOrCancelled hstartup) ?_
            intro token w₃ hw₃
            exact keeps_slept hw₂' hw₃ hstop

theorem keeps_awaitReady (hstartup : 0 < host.clock.span p.startupPoll) (hw : w.now ≤ bound) :
    p.awaitReady.Keeps (timely host bound) (Readied bound) w :=
  keeps_bind (keeps_bystanding (within_log _ _)) fun _ _ hw₁ =>
    keeps_repeat (hw₁.inTime hw) fun _ _ hw => keeps_readinessTurn hstartup hw

theorem keeps_burst_timely (hp : p.Fit) (sent : Nat) :
    (p.burst sent).Keeps (timely host bound) (fun _ => World.Elapses bound w) w := by
  unfold burst
  cases hb : p.bursts with
  | none => exact keeps_answer fun _ hr => hr
  | some b =>
      dsimp only
      split
      · refine keeps_bind (keeps_bystanding (within_draw trivial (hp b hb))) ?_
        intro size w₁ hw₁
        refine keeps_bind (keeps_brief (within_marking _)) ?_
        intro _ w₂ hw₂
        have hw := hw₁.trans hw₂
        cases size with
        | none => exact keeps_answer fun _ hr => hw.trans hr
        | some size =>
            refine keeps_bind (Burst.keeps_run_timely b _ _ _) ?_
            intro _ w₃ hw₃
            exact keeps_answer fun _ hr => (hw.trans hw₃).trans hr
      · exact keeps_answer fun _ hr => hr

/-- A pause that is drawn takes time. -/
theorem keeps_pause (hclock : host.clock.longest ≠ some 0) :
    (draw (pause p.txInterval) : Activity Duration).Keeps (timely host bound)
      (fun delay w' => World.Elapses bound w w' ∧ 0 < host.clock.span delay) w := by
  refine keeps_act ?_
  intro w₁ hr
  dsimp only [timely, World.perform]
  cases h : pause p.txInterval w₁.supply with
  | dry => exact trivial
  | abort cause => exact (steady_pause p.txInterval).ne_abort _ _ h
  | value delay supply =>
      -- No pause is below a second, whatever the word says.
      have hlong : 0 < delay.toNanos :=
        Nat.lt_of_lt_of_le (by decide) (shortestPause_le_of_pause h)
      exact ⟨trivial, fun w₂ hr' =>
        ⟨hr.trans ⟨hr'.later, hr'.inTime, hr'.cancelled⟩, Clock.span_pos hclock hlong⟩⟩

theorem keeps_turn_timely (hp : p.Fit) (hclock : host.clock.longest ≠ some 0) (s : Progress) :
    (p.turn s).Keeps (timely host bound)
      (Onward bound (fun _ w' => w'.cancelled = true) w) w := by
  unfold turn
  refine keeps_bind keeps_isCancelled ?_
  intro token w₁ hw₁
  cases token with
  | true => exact keeps_answer fun w' hr => hr.cancelled (hw₁.2 rfl)
  | false =>
      refine keeps_bind (keeps_bystanding (within_draw trivial p.generator.steady_generate))
        fun drawn w₂ hw₂ => ?_
      refine keeps_bind (keeps_brief (within_submit submits_brief _ drawn.1 _)) ?_
      intro _ w₃ hw₃
      refine keeps_bind (keeps_burst_timely hp _) ?_
      intro _ w₄ hw₄
      refine keeps_bind (keeps_bystanding (p.within_statistics _)) ?_
      intro lastStats w₅ hw₅
      refine keeps_bind (keeps_pause hclock) ?_
      intro delay w₆ hw₆
      refine keeps_bind (keeps_brief (within_marking _)) ?_
      intro _ w₇ hw₇
      refine keeps_bind (keeps_sleepOrCancelled hw₆.2) ?_
      intro token w₈ hw₈
      have hw := ((((hw₁.1.trans hw₂).trans hw₃).trans hw₄).trans hw₅).trans (hw₆.1.trans hw₇)
      exact keeps_slept hw hw₈ fun _ _ hcancelled => hcancelled

/-- The generation ends in time, and only when the run is cancelled. -/
theorem keeps_run_timely (hp : p.Fit) (hclock : host.clock.longest ≠ some 0)
    (hstartup : 0 < host.clock.span p.startupPoll) (hw : w.now ≤ bound) :
    p.run.Keeps (timely host bound) (fun _ w' => w'.cancelled = true) w := by
  refine keeps_bind (keeps_awaitReady hstartup hw) ?_
  intro ready w₁ hw₁
  cases ready with
  | false => exact keeps_answer fun _ hr => hr.cancelled (hw₁.2 rfl)
  | true =>
      refine keeps_bind (keeps_bystanding within_clock) ?_
      intro now w₂ hw₂
      exact keeps_repeat (hw₂.inTime hw₁.1) fun s _ _ => keeps_turn_timely hp hclock s

end Plan
end Activity
end TxWorkload
