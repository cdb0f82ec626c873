import TxWorkload.Proofs.Activity.Poll
import TxWorkload.Proofs.Routine.Laps
import TxWorkload.Proofs.Routine.Rest

/-!
# Patrol — polling a network again and again

The watch and the wait for the network are loops of one shape: a poll that may be cut short, some
lines about its outcome, and a pause before the next poll unless it was the last one. So the polls
of a patrol begin one after the other, each of them when the pause after the one before is over,
and the patrol is over when one of them gives an answer or the run is cancelled.
-/

namespace TxWorkload
namespace Activity

open Routine
open Routine (Host World Licence Wait)

/-- Polling again and again: what is written about an outcome, whether it is the answer or a pause
comes before the next poll, and the answer of a run that is cancelled. -/
structure Patrol (β : Type) where
  network : Network
  lines : Except Error Report → List (Level × String)
  next : Except Error Report → Duration ⊕ β
  quit : β

namespace Patrol

variable {β : Type} (p : Patrol β)

/-- One turn of a patrol. -/
def turn : Activity (Unit ⊕ β) := do
  if ← isCancelled then return .inr p.quit
  else
    match ← untilCancelled (poll p.network) with
    | none => return .inr p.quit
    | some outcome =>
        write (p.lines outcome)
        match p.next outcome with
        | .inr b => return .inr b
        | .inl pause =>
            if ← sleepOrCancelled pause then return .inr p.quit else return .inl ()

/-- Poll until there is an answer, or the run is cancelled. -/
def run : Activity β :=
  iterate () fun _ => p.turn

/-! ## Turns -/

variable (host : Host activities)

/-- What follows a poll that has ended or was cut short. -/
inductive Follows (w : World activities) :
    Option (Except Error Report) → Unit ⊕ β → World activities → Prop
  | abandoned : Follows w none (.inr p.quit) w
  | answered {outcome : Except Error Report} {b : β} (hnext : p.next outcome = .inr b) :
      Follows w (some outcome) (.inr b) (w.write (p.lines outcome))
  | interrupted {outcome : Except Error Report} {pause : Duration} {w' : World activities}
      (hnext : p.next outcome = .inl pause)
      (hrests : Rests host (w.write (p.lines outcome)) pause true w') :
      Follows w (some outcome) (.inr p.quit) w'
  | again {outcome : Except Error Report} {pause : Duration} {w' : World activities}
      (hnext : p.next outcome = .inl pause)
      (hrests : Rests host (w.write (p.lines outcome)) pause false w') :
      Follows w (some outcome) (.inl ()) w'

variable {p host}

theorem comesTo_turn {w w' : World activities} {turn : Unit ⊕ β} :
    p.turn.ComesTo host w turn w' ↔
      (w.cancelled = true ∧ turn = .inr p.quit ∧ w' = w) ∨
        (w.cancelled = false ∧ ∃ answer w₁,
          (untilCancelled (poll p.network)).ComesTo host w answer w₁ ∧
          p.Follows host w₁ answer turn w') := by
  refine comesTo_unlessIsCancelled.trans (or_congr_right (and_congr_right fun _ => ?_))
  rw [comesTo_bind]
  refine exists_congr fun answer => exists_congr fun w₁ => and_congr_right fun _ => ?_
  cases answer with
  | none =>
      refine comesTo_pure.trans ⟨?_, ?_⟩
      · rintro ⟨rfl, rfl⟩
        exact .abandoned
      · rintro ⟨⟩
        exact ⟨rfl, rfl⟩
  | some outcome =>
      dsimp only
      rw [comesTo_bind]
      constructor
      · rintro ⟨_, w₂, hwrite, h⟩
        rw [comesTo_write.1 hwrite] at h
        cases hnext : p.next outcome with
        | inr b =>
            rw [hnext] at h
            rcases comesTo_pure.1 h with ⟨rfl, rfl⟩
            exact .answered hnext
        | inl pause =>
            rw [hnext] at h
            rcases comesTo_sleep_bind.1 h with ⟨token, hrests, rfl⟩
            cases token with
            | true => exact .interrupted hnext hrests
            | false => exact .again hnext hrests
      · intro h
        refine ⟨(), _, comesTo_write.2 rfl, ?_⟩
        cases h with
        | answered hnext =>
            rw [hnext]
            exact comesTo_pure.2 ⟨rfl, rfl⟩
        | interrupted hnext hrests =>
            rw [hnext]
            exact comesTo_sleep_bind.2 ⟨true, hrests, rfl⟩
        | again hnext hrests =>
            rw [hnext]
            exact comesTo_sleep_bind.2 ⟨false, hrests, rfl⟩

/-- A turn does what a licence for polls in races allows. -/
theorem within_turn {L : Licence activities} (hpolls : Polls (unraced L))
    (hlog : ∀ level text, L.effect (.log level text)) (hlook : L.effect .isCancelled)
    (hcheck : L.effect .checkpoint)
    (htimer : ∀ d, L.wait true (Wait.timer d : Wait activities Unit)) (p : Patrol β) :
    p.turn.Within L := by
  have hwrite : ∀ lines, (write lines : Activity Unit).Within L := by
    intro lines
    induction lines with
    | nil => exact trivial
    | cons line rest ih => exact ⟨hlog _ _, fun _ => ih⟩
  have hpoll : (untilCancelled (poll p.network)).Within L :=
    within_untilCancelled (within_poll hpolls _) (fun _ he => he) (fun _ _ _ hwait => hwait) id
      hcheck
  refine within_bind ⟨hlook, fun _ => trivial⟩ fun token => ?_
  split
  · exact trivial
  · refine within_bind hpoll fun answer => ?_
    cases answer with
    | none => exact trivial
    | some outcome =>
        refine within_bind (hwrite _) fun _ => ?_
        cases p.next outcome with
        | inr b => exact trivial
        | inl pause =>
            refine within_bind (within_sleepOrCancelled hcheck hlook (htimer _)) fun token => ?_
            split <;> exact trivial

theorem within_run (p : Patrol β) : p.run.Within heeding := by
  have hpolls : Polls (unraced (heeding : Licence activities)) :=
    { raise := fun _ => trivial
      add := fun _ => trivial
      ask := fun _ _ => rfl
      polled := fun _ => trivial }
  refine within_iterate trivial fun _ => ?_
  exact within_turn hpolls (fun _ _ => trivial) trivial trivial (fun _ => rfl) p

theorem steady (p : Patrol β) (host : Host activities) (w₀ : World activities) :
    Steady host (fun _ => p.turn) () w₀ := by
  intro k s w _
  have hpolls : Polls (unraced (steadfast : Licence activities)) :=
    { raise := fun _ _ _ _ => ⟨_, _, rfl⟩
      add := fun _ _ _ _ => ⟨_, _, rfl⟩
      ask := fun _ _ => rfl
      polled := fun _ _ _ _ => ⟨_, _, rfl⟩ }
  refine comesTo_or_stalls ?_ host w
  exact within_turn hpolls (fun _ _ _ _ _ => ⟨_, _, rfl⟩) (fun _ _ _ => ⟨_, _, rfl⟩)
    (fun _ _ _ => ⟨_, _, rfl⟩) (fun _ => rfl) p

/-! ## Polls that begin -/

variable (p host) (w₀ : World activities)

/-- The outcomes of the polls so far, when another poll is about to begin. -/
inductive Begins : List (Except Error Report) → World activities → Prop
  | first (hw : w₀.cancelled = false) : Begins [] w₀
  | next {outcomes : List (Except Error Report)} {outcome : Except Error Report}
      {pause : Duration} {w w₁ w₂ : World activities} (h : Begins outcomes w)
      (hpoll : (untilCancelled (poll p.network)).ComesTo host w (some outcome) w₁)
      (hnext : p.next outcome = .inl pause)
      (hrests : Rests host (w₁.write (p.lines outcome)) pause false w₂) :
      Begins (outcomes ++ [outcome]) w₂

/-- How a patrol ends, and the outcomes of all its polls. -/
inductive Ends : List (Except Error Report) → β → World activities → Prop
  | unbegun (hw : w₀.cancelled = true) : Ends [] p.quit w₀
  | ended {outcomes : List (Except Error Report)} {answer : Option (Except Error Report)} {b : β}
      {w w₁ w' : World activities} (h : p.Begins host w₀ outcomes w)
      (hpoll : (untilCancelled (poll p.network)).ComesTo host w answer w₁)
      (hfollows : p.Follows host w₁ answer (.inr b) w') :
      Ends (outcomes ++ answer.toList) b w'

variable {p host w₀} {outcomes : List (Except Error Report)} {w w' : World activities} {b : β}

theorem Begins.active (h : p.Begins host w₀ outcomes w) : w.cancelled = false := by
  cases h with
  | first hw => exact hw
  | next _ _ _ hrests => exact hrests.cancelled_eq

/-- Each poll but the first one begins when the pause after the one before is over. -/
theorem Begins.of_append {outcome : Except Error Report} (hclock : host.clock = {})
    (h : p.Begins host w₀ (outcomes ++ [outcome]) w') :
    ∃ w w₁ pause, p.Begins host w₀ outcomes w ∧
      (untilCancelled (poll p.network)).ComesTo host w (some outcome) w₁ ∧
      p.next outcome = .inl pause ∧ w'.now = w₁.now + pause.toNanos := by
  generalize hall : outcomes ++ [outcome] = all at h
  cases h with
  | first _ => cases outcomes <;> cases hall
  | @next before last pause w w₁ _ h hpoll hnext hrests =>
      rcases List.append_inj' hall rfl with ⟨rfl, hlast⟩
      cases hlast
      have hnow := hrests.now_eq hclock
      rw [World.now_write] at hnow
      exact ⟨w, w₁, pause, h, hpoll, hnext, hnow⟩

/-- Each poll but the first one is a lap. -/
theorem Begins.laps (h : p.Begins host w₀ outcomes w) :
    Laps host (fun _ => p.turn) () w₀ outcomes.length () w := by
  induction h with
  | first hw => exact .start
  | next h hpoll hnext hrests ih =>
      rw [List.length_append]
      exact ih.lap (comesTo_turn.2 (.inr ⟨h.active, _, _, hpoll, .again hnext hrests⟩))

theorem exists_begins {k : Nat} (hw : w₀.cancelled = false)
    (h : Laps host (fun _ => p.turn) () w₀ k () w) :
    ∃ outcomes, outcomes.length = k ∧ p.Begins host w₀ outcomes w := by
  generalize hs : () = s at h
  induction h with
  | start => exact ⟨[], rfl, .first hw⟩
  | lap _ hturn ih =>
      rcases ih rfl with ⟨outcomes, hlength, hbegins⟩
      rcases comesTo_turn.1 hturn with ⟨-, hquit, -⟩ | ⟨-, answer, w₁, hpoll, hfollows⟩
      · cases hquit
      · cases hfollows with
        | @again outcome pause _ hnext hrests =>
            refine ⟨outcomes ++ [outcome], ?_, hbegins.next hpoll hnext hrests⟩
            rw [List.length_append, hlength]
            rfl

/-- A patrol of a cancelled run makes no lap. -/
theorem eq_of_laps {k : Nat} (hw : w₀.cancelled = true)
    (h : Laps host (fun _ => p.turn) () w₀ k () w) : w = w₀ := by
  generalize hs : () = s at h
  induction h with
  | start => rfl
  | lap _ hturn ih =>
      rw [ih rfl] at hturn
      rcases comesTo_turn.1 hturn with ⟨-, hquit, -⟩ | ⟨hactive, -⟩
      · cases hquit
      · exact absurd (hw.symm.trans hactive) (by decide)

/-- The run passes through the moments at which its polls begin. -/
theorem Begins.passes (h : p.Begins host w₀ outcomes w) :
    ∃ n, Solo.run host n (Solo.start w₀ p.run) = Solo.start w p.run := by
  rcases h.laps.passes .done with ⟨n, -, hn⟩
  exact ⟨n, hn⟩

/-- A patrol comes to an answer in the ways listed, and in no other way. -/
theorem comesTo_run : p.run.ComesTo host w₀ b w' ↔ ∃ outcomes, p.Ends host w₀ outcomes b w' := by
  rw [run, comesTo_iterate]
  constructor
  · rintro ⟨k, s, w, hlaps, hlast⟩
    -- In a cancelled run the first turn is the last one; otherwise each turn begins with a poll.
    cases hw : w₀.cancelled with
    | true =>
        rw [eq_of_laps hw hlaps] at hlast
        rcases comesTo_turn.1 hlast with ⟨-, hquit, rfl⟩ | ⟨hactive, -⟩
        · cases hquit
          exact ⟨[], .unbegun hw⟩
        · exact absurd (hw.symm.trans hactive) (by decide)
    | false =>
        rcases exists_begins hw hlaps with ⟨outcomes, -, hbegins⟩
        rcases comesTo_turn.1 hlast with ⟨hcancelled, -⟩ | ⟨-, answer, w₁, hpoll, hfollows⟩
        · exact absurd (hcancelled.symm.trans hbegins.active) (by decide)
        · exact ⟨_, .ended hbegins hpoll hfollows⟩
  · rintro ⟨outcomes, h⟩
    cases h with
    | unbegun hw => exact ⟨0, (), w₀, .start, comesTo_turn.2 (.inl ⟨hw, rfl, rfl⟩)⟩
    | ended h hpoll hfollows =>
        refine ⟨_, (), _, h.laps, comesTo_turn.2 (.inr ⟨h.active, _, _, hpoll, hfollows⟩)⟩

/-- A patrol comes to an end in one of two ways: a poll gives the answer, or the run is
cancelled. -/
theorem Ends.answered_or_cancelled (h : p.Ends host w₀ outcomes b w') :
    (∃ before outcome w w₁, outcomes = before ++ [outcome] ∧ p.Begins host w₀ before w ∧
      (untilCancelled (poll p.network)).ComesTo host w (some outcome) w₁ ∧
      p.next outcome = .inr b ∧ w' = w₁.write (p.lines outcome)) ∨
      b = p.quit ∧ w'.cancelled = true := by
  cases h with
  | unbegun hw => exact .inr ⟨rfl, hw⟩
  | @ended before _ _ w w₁ _ h hpoll hfollows =>
      cases hfollows with
      | abandoned => exact .inr ⟨rfl, (abandoned_of_untilCancelled h.active hpoll).cancelled⟩
      | @answered outcome _ hnext =>
          exact .inl ⟨before, outcome, w, w₁, rfl, h, hpoll, hnext, rfl⟩
      | interrupted _ hrests => exact .inr ⟨rfl, hrests.cancelled_eq⟩

/-! ## What polls leave behind -/

/-- What polls with some outcomes leave behind: their lines, the heights that were observed, and
calls that ask for the state of the nodes. -/
structure Leaves (p : Patrol β) (w₀ : World activities) (outcomes : List (Except Error Report))
    (w : World activities) : Prop where
  lines : w.lines = (outcomes.flatMap p.lines).reverse ++ w₀.lines
  counters : w.counters = outcomes.foldl settled w₀.counters
  past : ∃ asked, w.past = asked ++ w₀.past ∧ ∀ call ∈ asked, inquires call

namespace Leaves

theorem refl (p : Patrol β) (w₀ : World activities) : p.Leaves w₀ [] w₀ :=
  ⟨rfl, rfl, [], rfl, fun _ h => absurd h List.not_mem_nil⟩

variable {w₁ w₂ : World activities}

theorem polled {outcome : Except Error Report} (h : p.Leaves w₀ outcomes w)
    (hpoll : (untilCancelled (poll p.network)).ComesTo host w (some outcome) w₁) :
    p.Leaves w₀ (outcomes ++ [outcome]) (w₁.write (p.lines outcome)) := by
  have hpolled := polled_of_comesTo (comesTo_of_untilCancelled hpoll)
  rcases w₁.write_eq (p.lines outcome) with ⟨journal, hwrite, hlines, -⟩
  rcases h.past with ⟨asked, hpast, hasked⟩
  refine ⟨?_, ?_, p.network.questions ++ asked, ?_, fun call hcall => ?_⟩
  · rw [hlines, hpolled.lines, h.lines, List.flatMap_append, List.reverse_append]
    simp
  · rw [hwrite, List.foldl_append, ← h.counters]
    exact hpolled.counters
  · rw [hwrite, List.append_assoc, ← hpast]
    exact hpolled.past
  · rcases List.mem_append.1 hcall with hcall | hcall
    · exact Network.inquires_of_question hcall
    · exact hasked call hcall

theorem abandoned (h : p.Leaves w₀ outcomes w) (hleft : Abandoned p.network w w₁) :
    p.Leaves w₀ outcomes w₁ := by
  rcases hleft.past with ⟨asked, hasked, hpast⟩
  rcases h.past with ⟨before, hbefore, hinquires⟩
  refine ⟨hleft.lines.trans h.lines, hleft.counters.trans h.counters, asked ++ before, ?_,
    fun call hcall => ?_⟩
  · rw [hpast, hbefore, List.append_assoc]
  · rcases List.mem_append.1 hcall with hcall | hcall
    · exact Network.inquires_of_question (hasked.subset hcall)
    · exact hinquires call hcall

theorem rests {d : Duration} {token : Bool} (h : p.Leaves w₀ outcomes w₁)
    (hrests : Rests host w₁ d token w₂) : p.Leaves w₀ outcomes w₂ := by
  rcases hrests.undisturbed with ⟨hcounters, hpast, hjournal, -⟩
  refine ⟨?_, hcounters.trans h.counters, ?_⟩
  · rw [← h.lines, World.lines, hjournal, World.lines]
  · rw [hpast]
    exact h.past

end Leaves

theorem Begins.leaves (h : p.Begins host w₀ outcomes w) : p.Leaves w₀ outcomes w := by
  induction h with
  | first _ => exact .refl p w₀
  | next _ hpoll _ hrests ih => exact (ih.polled hpoll).rests hrests

theorem Ends.leaves (h : p.Ends host w₀ outcomes b w') : p.Leaves w₀ outcomes w' := by
  cases h with
  | unbegun _ => exact .refl p w₀
  | ended h hpoll hfollows =>
      cases hfollows with
      | abandoned =>
          rw [Option.toList_none, List.append_nil]
          exact h.leaves.abandoned (abandoned_of_untilCancelled h.active hpoll)
      | answered _ => exact h.leaves.polled hpoll
      | interrupted _ hrests => exact (h.leaves.polled hpoll).rests hrests

/-- After a poll that gives no answer comes a pause, and then the next poll begins, or the patrol is
over because the run is cancelled. -/
theorem Begins.goes_on {outcome : Except Error Report} {pause : Duration} {w₁ : World activities}
    (hclock : host.clock = {}) (h : p.Begins host w₀ outcomes w)
    (hpoll : (untilCancelled (poll p.network)).ComesTo host w (some outcome) w₁)
    (hnext : p.next outcome = .inl pause) :
    ∃ w₂, p.Leaves w [outcome] w₂ ∧
      ((p.Begins host w₀ (outcomes ++ [outcome]) w₂ ∧ w₂.now = w₁.now + pause.toNanos) ∨
        (p.run.ComesTo host w₀ p.quit w₂ ∧ w₂.cancelled = true ∧ w₁.now ≤ w₂.now ∧
          w₂.now ≤ w₁.now + pause.toNanos)) := by
  rcases exists_rests host (w₁.write (p.lines outcome)) pause with ⟨token, w₂, hrests⟩
  refine ⟨w₂, ((Leaves.refl p w).polled hpoll).rests hrests, ?_⟩
  cases token with
  | false =>
      have hnow := hrests.now_eq hclock
      rw [World.now_write] at hnow
      exact .inl ⟨h.next hpoll hnext hrests, hnow⟩
  | true =>
      have hbetween := hrests.now_between hclock
      rw [World.now_write] at hbetween
      have hends := comesTo_run.2 ⟨_, .ended h hpoll (.interrupted hnext hrests)⟩
      exact .inr ⟨hends, hrests.cancelled_eq, hbetween⟩

/-! ## The end of a patrol -/

/-- No poll begins once the run has been cancelled. -/
theorem Begins.now_le {moment : Nat} (h : p.Begins host w₀ outcomes w)
    (hcancel : Solo.CancelledAt host (Solo.start w₀ p.run) moment) : w.now ≤ moment := by
  rcases h.passes with ⟨n, hn⟩
  exact Solo.now_le_of_cancelledAt hn h.active hcancel

/-- A patrol whose run is cancelled is over at that moment. -/
theorem exists_comesTo_run {moment : Nat}
    (hcancel : Solo.CancelledAt host (Solo.start w₀ p.run) moment) :
    ∃ b w', p.run.ComesTo host w₀ b w' ∧ w'.now = moment ∧ w'.cancelled = true := by
  rcases hcancel with ⟨n, hn, hmoment⟩
  have hquits : ∀ (_ : Unit) (w : World activities), w.cancelled = true →
      ∃ b w', p.turn.ComesTo host w (.inr b) w' :=
    fun _ w hw => ⟨p.quit, w, comesTo_turn.2 (.inl ⟨hw, rfl, rfl⟩)⟩
  rcases comesTo_of_cancelled (p.steady host w₀) hquits hn with ⟨b, w', h⟩
  exact ⟨b, w', h, Solo.now_of_cancelledAt p.within_run h ⟨n, hn, hmoment⟩⟩

/-- A patrol makes as many polls as one likes, unless it ends, or waits for a reply that never
comes. -/
theorem begins_or_ends (p : Patrol β) (host : Host activities) (hw : w₀.cancelled = false)
    (k : Nat) :
    (∃ outcomes w, outcomes.length = k ∧ p.Begins host w₀ outcomes w) ∨
      (∃ b w', p.run.ComesTo host w₀ b w') ∨ Solo.Hangs host (Solo.start w₀ p.run) := by
  rcases laps_or_ends (p.steady host w₀) k with ⟨s, w, h⟩ | hends
  · rcases exists_begins hw h with ⟨outcomes, hlength, hbegins⟩
    exact .inl ⟨outcomes, w, hlength, hbegins⟩
  · exact .inr (hends.imp_right Stalls.hangs)

/-- A patrol that takes pauses ends if the run is to be cancelled from outside. -/
theorem exists_comesTo_run_of_cancelAt {t : Nat}
    (hpause : ∀ outcome pause, p.next outcome = .inl pause → 0 < host.clock.span pause)
    (ht : host.cancelAt = some t) : ∃ b w', p.run.ComesTo host w₀ b w' := by
  refine comesTo_of_cancelAt (p.steady host w₀) p.within_run ?_ ht
  -- A lap takes at least the time of its pause.
  intro _ _ w w' hturn
  rcases comesTo_turn.1 hturn with ⟨-, hquit, -⟩ | ⟨-, answer, w₁, hpoll, hfollows⟩
  · cases hquit
  · cases hfollows with
    | @again outcome pause _ hnext hrests =>
        have hpolled := polled_of_comesTo (comesTo_of_untilCancelled hpoll)
        have hlater := hrests.now_lt (hpause _ _ hnext)
        rw [World.now_write] at hlater
        exact Nat.lt_of_le_of_lt hpolled.now_le hlater

end Patrol
end Activity
end TxWorkload
