import TxWorkload.Proofs.Activity.Booking
import TxWorkload.Proofs.Routine.Laps

/-!
# Burst — what a burst sends and what it reports

A burst sends a transaction at once, and another one whenever the pause after the one before is
over, as long as some are left and the run is not cancelled. A transaction counts from the moment at
which its submission begins. So a burst that is cancelled reports the one that was on its way, or
whose pause was cut short, as its last one.
-/

namespace TxWorkload
namespace Activity
namespace Burst

open Routine
open Routine (Host World)
open TxWorkload.Random (excerpt)
open TxWorkload.Random.Draw (Served)

variable {b : Config.Bursts} {g : Transaction.Generator} {endpoints : List Endpoint} {size : Nat}
  {host : Host activities} {w w₀ w₁ w₂ w' : World activities} {hash : Option String}

/-! ## Turns -/

theorem turn_eq {sent : Nat} (hless : sent < size) :
    turn b g endpoints size sent = (do
      if ← isCancelled then return .inr sent
      else
        let _ ← submission g endpoints
        if ← sleepOrCancelled b.pause then return .inr (sent + 1)
        else return .inl (sent + 1)) := by
  unfold turn submission
  rw [if_pos hless]
  simp only [bind_assoc]

/-- A turn finds that nothing is left to send, or that the run is cancelled, or sends one
transaction. -/
theorem comesTo_turn {sent : Nat} {next : Nat ⊕ Nat} :
    (turn b g endpoints size sent).ComesTo host w next w' ↔
      ((size ≤ sent ∨ w.cancelled = true) ∧ next = .inr sent ∧ w' = w) ∨
        (sent < size ∧ w.cancelled = false ∧ ∃ hash w₁ token,
          (submission g endpoints).ComesTo host w hash w₁ ∧ Rests host w₁ b.pause token w' ∧
            next = if token then .inr (sent + 1) else .inl (sent + 1)) := by
  by_cases hless : sent < size
  · rw [turn_eq hless, comesTo_unlessIsCancelled, comesTo_bind]
    simp only [comesTo_sleep_bind, Nat.not_le.2 hless, false_or, hless, true_and, exists_and_left]
  · have hturn : turn b g endpoints size sent = pure (.inr sent) := if_neg hless
    rw [hturn, comesTo_pure]
    simp only [hless, Nat.le_of_not_lt hless, true_or, true_and, false_and, or_false]

/-! ## Submissions that begin -/

section

variable (b g endpoints size host) (w₀ : World activities)

/-- The times that the submissions so far have taken, when the pause after the last of them is over
and the run is not cancelled. -/
inductive Spent : List Nat → World activities → Prop
  | start (hw : w₀.cancelled = false) : Spent [] w₀
  | next {times : List Nat} {hash : Option String} {w w₁ w₂ : World activities}
      (h : Spent times w) (hless : times.length < size)
      (hsubmit : (submission g endpoints).ComesTo host w hash w₁)
      (hrests : Rests host w₁ b.pause false w₂) : Spent (times ++ [w₁.now - w.now]) w₂

/-- Whether another submission begins after those that have taken certain times. -/
def Begins (times : List Nat) (w : World activities) : Prop :=
  Spent b g endpoints size host w₀ times w ∧ times.length < size

/-- How a burst ends, and the times that all its submissions have taken. -/
inductive Ends : List Nat → World activities → Prop
  | unbegun (hw : w₀.cancelled = true) : Ends [] w₀
  | complete {times : List Nat} {w : World activities}
      (h : Spent b g endpoints size host w₀ times w) (hall : times.length = size) : Ends times w
  | cancelled {times : List Nat} {hash : Option String} {w w₁ w₂ : World activities}
      (h : Begins b g endpoints size host w₀ times w)
      (hsubmit : (submission g endpoints).ComesTo host w hash w₁)
      (hrests : Rests host w₁ b.pause true w₂) : Ends (times ++ [w₁.now - w.now]) w₂

end

variable {times : List Nat}

theorem Spent.active (h : Spent b g endpoints size host w₀ times w) : w.cancelled = false := by
  cases h with
  | start hw => exact hw
  | next _ _ _ hrests => exact hrests.cancelled_eq

theorem Spent.length_le (h : Spent b g endpoints size host w₀ times w) : times.length ≤ size := by
  cases h with
  | start _ => exact Nat.zero_le _
  | next _ hless _ _ =>
      rw [List.length_append]
      exact hless

/-- Each submission but the first one begins when the pause after the one before is over. -/
theorem Spent.of_append {time : Nat} (hclock : host.clock = {})
    (h : Spent b g endpoints size host w₀ (times ++ [time]) w₂) :
    ∃ w hash w₁, Begins b g endpoints size host w₀ times w ∧
      (submission g endpoints).ComesTo host w hash w₁ ∧ w₁.now = w.now + time ∧
        w₂.now = w₁.now + b.pause.toNanos := by
  generalize hall : times ++ [time] = all at h
  cases h with
  | start _ => cases times <;> cases hall
  | @next before hash w w₁ _ h hless hsubmit hrests =>
      rcases List.append_inj' hall rfl with ⟨rfl, htime⟩
      cases htime
      refine ⟨w, hash, w₁, ⟨h, hless⟩, hsubmit, ?_, hrests.now_eq hclock⟩
      exact (Nat.add_sub_cancel' (submitted_of_comesTo hsubmit).later).symm

/-- The time that submissions have taken together. -/
def elapsed (times : List Nat) : Nat :=
  times.foldl (· + ·) 0

theorem elapsed_append (times : List Nat) (time : Nat) :
    elapsed (times ++ [time]) = elapsed times + time := by
  rw [elapsed, List.foldl_append]
  rfl

theorem Spent.now_eq (hclock : host.clock = {})
    (h : Spent b g endpoints size host w₀ times w) :
    w.now = w₀.now + elapsed times + times.length * b.pause.toNanos := by
  induction h with
  | start _ => simp [elapsed]
  | next _ _ hsubmit hrests ih =>
      have hlater := (submitted_of_comesTo hsubmit).later
      rw [hrests.now_eq hclock, elapsed_append, List.length_append, List.length_singleton,
        Nat.succ_mul]
      omega

theorem Spent.counted (h : Spent b g endpoints size host w₀ times w) :
    Counted times.length w₀ w := by
  induction h with
  | start _ => exact .of_eq rfl rfl
  | next _ _ hsubmit hrests ih =>
      rw [List.length_append]
      exact ih.next (submitted_of_comesTo hsubmit) hrests

theorem Ends.counted (h : Ends b g endpoints size host w₀ times w') :
    Counted times.length w₀ w' := by
  cases h with
  | unbegun _ => exact .of_eq rfl rfl
  | complete h _ => exact h.counted
  | cancelled h hsubmit hrests =>
      rw [List.length_append]
      exact h.1.counted.next (submitted_of_comesTo hsubmit) hrests

/-- The words that are left serve the submissions that are left. -/
theorem Spent.serves (h : Spent b g endpoints size host w₀ times w)
    (hserves : serves g size w₀.supply = true) :
    Burst.serves g (size - times.length) w.supply = true := by
  induction h with
  | start _ => exact hserves
  | @next times hash w w₁ w₂ h hless hsubmit hrests ih =>
      rcases (submitted_of_comesTo hsubmit).supply with ⟨drawn, hdrawn⟩
      have hleft : size - times.length = size - (times.length + 1) + 1 := by omega
      -- The submission has taken the words of its transaction, and the pause takes none.
      rw [hleft, Burst.serves, hdrawn] at ih
      rw [List.length_append, hrests.undisturbed.2.2.2]
      exact ih

/-! ## Laps of a burst -/

/-- Each submission but the first one is a lap. -/
theorem Spent.laps (h : Spent b g endpoints size host w₀ times w) :
    Laps host (turn b g endpoints size) 0 w₀ times.length times.length w := by
  induction h with
  | start _ => exact .start
  | next h hless hsubmit hrests ih =>
      rw [List.length_append]
      exact ih.lap (comesTo_turn.2 (.inr ⟨hless, h.active, _, _, false, hsubmit, hrests, rfl⟩))

theorem exists_spent {k s : Nat} (hw : w₀.cancelled = false)
    (h : Laps host (turn b g endpoints size) 0 w₀ k s w) :
    s = k ∧ ∃ times, times.length = k ∧ Spent b g endpoints size host w₀ times w := by
  induction h with
  | start => exact ⟨rfl, [], rfl, .start hw⟩
  | lap _ hturn ih =>
      rcases ih with ⟨rfl, times, hlength, hspent⟩
      rcases comesTo_turn.1 hturn with ⟨-, hends, -⟩ |
        ⟨hless, -, hash, w₁, token, hsubmit, hrests, hnext⟩
      · cases hends
      · cases token with
        | true => cases hnext
        | false =>
            cases hnext
            rw [← hlength] at hless
            refine ⟨rfl, _, ?_, hspent.next hless hsubmit hrests⟩
            rw [List.length_append, hlength]
            rfl

/-- A burst of a cancelled run makes no lap. -/
theorem eq_of_laps {k s : Nat} (hw : w₀.cancelled = true)
    (h : Laps host (turn b g endpoints size) 0 w₀ k s w) : k = 0 ∧ s = 0 ∧ w = w₀ := by
  induction h with
  | start => exact ⟨rfl, rfl, rfl⟩
  | lap _ hturn ih =>
      rcases ih with ⟨-, rfl, rfl⟩
      rcases comesTo_turn.1 hturn with ⟨-, hends, -⟩ | ⟨-, hactive, -⟩
      · cases hends
      · exact absurd (hw.symm.trans hactive) (by decide)

theorem Begins.last_turn (h : Begins b g endpoints size host w₀ times w)
    (hsubmit : (submission g endpoints).ComesTo host w hash w₁)
    (hrests : Rests host w₁ b.pause true w₂) :
    (turn b g endpoints size times.length).ComesTo host w (.inr (times.length + 1)) w₂ :=
  comesTo_turn.2 (.inr ⟨h.2, h.1.active, hash, w₁, true, hsubmit, hrests, rfl⟩)

/-- A burst comes to an end in the ways listed, and in no other way. -/
theorem comesTo_turns {sent : Nat} :
    (iterate 0 (turn b g endpoints size)).ComesTo host w₀ sent w' ↔
      ∃ times, times.length = sent ∧ Ends b g endpoints size host w₀ times w' := by
  rw [comesTo_iterate]
  constructor
  · rintro ⟨k, s, w, hlaps, hlast⟩
    -- In a cancelled run the first turn is the last one; otherwise each lap is a submission.
    cases hw : w₀.cancelled with
    | true =>
        rcases eq_of_laps hw hlaps with ⟨-, rfl, rfl⟩
        rcases comesTo_turn.1 hlast with ⟨-, hsent, rfl⟩ | ⟨-, hactive, -⟩
        · cases hsent
          exact ⟨[], rfl, .unbegun hw⟩
        · exact absurd (hw.symm.trans hactive) (by decide)
    | false =>
        rcases exists_spent hw hlaps with ⟨rfl, times, hlength, hspent⟩
        rcases comesTo_turn.1 hlast with ⟨hover, hsent, rfl⟩ |
          ⟨hless, -, hash, w₁, token, hsubmit, hrests, hsent⟩
        · cases hsent
          have hall : size ≤ times.length := by
            rw [hlength]
            refine hover.resolve_right fun hcancelled => ?_
            exact absurd (hcancelled.symm.trans hspent.active) (by decide)
          exact ⟨times, hlength, .complete hspent (Nat.le_antisymm hspent.length_le hall)⟩
        · cases token with
          | false => cases hsent
          | true =>
              cases hsent
              rw [← hlength] at hless
              refine ⟨_, ?_, .cancelled ⟨hspent, hless⟩ hsubmit hrests⟩
              rw [List.length_append, hlength]
              rfl
  · rintro ⟨times, rfl, h⟩
    cases h with
    | unbegun hw =>
        exact ⟨0, 0, w₀, .start, comesTo_turn.2 (.inl ⟨.inr hw, rfl, rfl⟩)⟩
    | complete h hall =>
        exact ⟨_, _, _, h.laps, comesTo_turn.2 (.inl ⟨.inl (Nat.le_of_eq hall.symm), rfl, rfl⟩)⟩
    | cancelled h hsubmit hrests =>
        rw [List.length_append]
        exact ⟨_, _, _, h.1.laps, h.last_turn hsubmit hrests⟩

/-- A burst reports as many submissions as have begun. -/
theorem Ends.begun_iff (h : Ends b g endpoints size host w₀ times w') (k : Nat) :
    (∃ before w, before.length = k ∧ Begins b g endpoints size host w₀ before w) ↔
      k < times.length := by
  -- There is nothing before a burst begins, and a submission begins before it has taken its time.
  have hbefore : ∀ {times w}, Spent b g endpoints size host w₀ times w → k < times.length →
      ∃ before w, before.length = k ∧ Begins b g endpoints size host w₀ before w := by
    intro times w h hk
    induction h with
    | start _ => exact absurd hk (Nat.not_lt_zero k)
    | next h hless _ _ ih =>
        rw [List.length_append] at hk
        rcases Nat.lt_or_eq_of_le (Nat.le_of_lt_succ hk) with hk | rfl
        · exact ih hk
        · exact ⟨_, _, rfl, h, hless⟩
  constructor
  · rintro ⟨before, w, rfl, hspent, hless⟩
    cases h with
    | unbegun hw =>
        rcases eq_of_laps hw hspent.laps with ⟨-, -, rfl⟩
        exact absurd (hw.symm.trans hspent.active) (by decide)
    | complete _ hall => exact hall ▸ hless
    | cancelled h hsubmit hrests =>
        rw [List.length_append]
        exact Nat.lt_succ_of_le (h.1.laps.le_of_ends (h.last_turn hsubmit hrests) hspent.laps)
  · intro hk
    cases h with
    | unbegun _ => exact absurd hk (Nat.not_lt_zero k)
    | complete h _ => exact hbefore h hk
    | cancelled h _ _ =>
        rw [List.length_append] at hk
        rcases Nat.lt_or_eq_of_le (Nat.le_of_lt_succ hk) with hk | rfl
        · exact hbefore h.1 hk
        · exact ⟨_, _, rfl, h⟩

/-- A submission that has its words ends or stalls. -/
theorem submission_or_stalls (host : Host activities) (endpoints : List Endpoint) {n : Nat}
    (hserves : serves g (n + 1) w.supply = true) :
    (∃ hash w', (submission g endpoints).ComesTo host w hash w') ∨
      Stalls host (submission g endpoints) w := by
  have hsubmits : Submits (steadfast : Licence activities) :=
    { successful := fun _ _ _ => ⟨_, _, rfl⟩
      failed := fun _ _ _ => ⟨_, _, rfl⟩
      log := fun _ _ _ _ _ => ⟨_, _, rfl⟩
      checkpoint := fun _ _ _ => ⟨_, _, rfl⟩
      total := fun _ _ _ => ⟨_, _, rfl⟩
      submitting := fun _ _ _ => ⟨_, _, rfl⟩
      submitted := fun _ _ _ _ => ⟨_, _, rfl⟩
      ask := fun _ => rfl }
  rw [serves] at hserves
  cases hdraw : g.generate w.supply with
  | dry =>
      rw [hdraw] at hserves
      cases hserves
  | abort cause =>
      rw [hdraw] at hserves
      cases hserves
  | value drawn rest =>
      have hdrawn : (draw g.generate : Activity _).ComesTo host w drawn _ :=
        comesTo_draw.2 ⟨rest, hdraw, rfl⟩
      have hsubmit := within_submit hsubmits endpoints drawn.1 drawn.2.burstName
      rcases comesTo_or_stalls hsubmit host { w with supply := rest } with
        ⟨hash, w', hsubmit⟩ | hstalls
      · exact .inl ⟨hash, w', comesTo_bind.2 ⟨drawn, _, hdrawn, hsubmit⟩⟩
      · exact .inr (stalls_bind_right hdrawn hstalls)

/-- Every turn of a burst ends or stalls, as long as the words last. -/
theorem steady (hserves : serves g size w₀.supply = true) :
    Steady host (turn b g endpoints size) 0 w₀ := by
  intro k s w h
  by_cases hover : size ≤ s ∨ w.cancelled = true
  · exact .inl ⟨_, w, comesTo_turn.2 (.inl ⟨hover, rfl, rfl⟩)⟩
  · rcases not_or.1 hover with ⟨hless, hw⟩
    replace hless := Nat.lt_of_not_le hless
    replace hw := Bool.eq_false_iff.2 hw
    have hw₀ : w₀.cancelled = false := by
      refine Bool.eq_false_iff.2 fun hw₀ => ?_
      rw [(eq_of_laps hw₀ h).2.2] at hw
      exact absurd (hw₀.symm.trans hw) (by decide)
    rcases exists_spent hw₀ h with ⟨rfl, times, rfl, hspent⟩
    have hwords := hspent.serves hserves
    rw [← Nat.sub_add_cancel (Nat.sub_pos_of_lt hless)] at hwords
    rcases submission_or_stalls host endpoints hwords with
      ⟨hash, w₁, hsubmit⟩ | hstalls
    · rcases exists_rests host w₁ b.pause with ⟨token, w₂, hrests⟩
      exact .inl ⟨_, w₂, comesTo_turn.2
        (.inr ⟨hless, hw, hash, w₁, token, hsubmit, hrests, rfl⟩)⟩
    · right
      have hlook : (isCancelled : Activity Bool).ComesTo host w false w :=
        comesTo_isCancelled.2 ⟨hw.symm, rfl⟩
      rw [turn_eq hless]
      exact stalls_bind_right hlook (stalls_bind_left _ hstalls)

/-! ## Whole bursts -/

/-- The world in which the first submission of a burst begins. -/
def launched (size : Nat) (w : World activities) : World activities :=
  w.note (.logged .info s!"🚀 Generating burst activity: {size} transactions")

/-- The world in which a burst has reported. -/
def reported (sent : Nat) (w : World activities) : World activities :=
  w.note (.marked (.burstEnded sent))

/-- What follows the last submission of a burst. -/
def report (sent : Nat) : Activity Nat := do
  mark (.burstEnded sent)
  return sent

theorem comesTo_run {sent : Nat} :
    (run b g endpoints size).ComesTo host w₀ sent w' ↔ ∃ times w, times.length = sent ∧
      Ends b g endpoints size host (launched size w₀) times w ∧ w' = reported sent w := by
  have hrun : (run b g endpoints size).ComesTo host w₀ sent w' ↔
      (iterate 0 (turn b g endpoints size) >>= report).ComesTo host (launched size w₀) sent w' := by
    refine comesTo_bind.trans ⟨?_, fun h => ⟨(), _, comesTo_log.2 rfl, h⟩⟩
    rintro ⟨_, w₁, hlog, h⟩
    rw [comesTo_log.1 hlog] at h
    exact h
  rw [hrun, comesTo_bind]
  simp only [comesTo_turns]
  constructor
  · rintro ⟨sent', w, ⟨times, rfl, hends⟩, hreport⟩
    rcases comesTo_bind.1 hreport with ⟨_, w₁, hmark, hdone⟩
    rcases comesTo_pure.1 hdone with ⟨rfl, rfl⟩
    exact ⟨times, w, rfl, hends, comesTo_mark.1 hmark⟩
  · rintro ⟨times, w, rfl, hends, rfl⟩
    refine ⟨_, w, ⟨times, rfl, hends⟩, comesTo_bind.2 ⟨(), _, comesTo_mark.2 rfl, ?_⟩⟩
    exact comesTo_pure.2 ⟨rfl, rfl⟩

/-- A burst counts what it reports. -/
theorem counted_of_comesTo {sent : Nat} (h : (run b g endpoints size).ComesTo host w₀ sent w') :
    Counted sent w₀ w' := by
  rcases comesTo_run.1 h with ⟨times, w, rfl, hends, rfl⟩
  have hlaunched : Counted 0 w₀ (launched size w₀) := .of_eq rfl rfl
  have hreported : Counted 0 w (reported times.length w) := by
    refine .of_eq ?_ rfl
    rw [reported, books_marked]
    rfl
  have hcounted := (hlaunched.trans hends.counted).trans hreported
  rwa [Nat.zero_add, Nat.add_zero] at hcounted

/-- The steps of a burst up to its first turn. -/
theorem run_one (host : Host activities) (w : World activities) :
    Solo.run host 1 (Solo.start w (run b g endpoints size)) =
      Solo.start (launched size w) (.loop 0 (turn b g endpoints size) report) :=
  rfl

/-- A burst passes through the moments at which its submissions begin. -/
theorem Spent.passes (h : Spent b g endpoints size host (launched size w₀) times w) :
    ∃ k, Solo.run host k (Solo.start w₀ (run b g endpoints size)) =
      Solo.start w (.loop times.length (turn b g endpoints size) report) := by
  rcases h.laps.passes report with ⟨n, -, hn⟩
  refine ⟨1 + n, ?_⟩
  rw [Solo.run_add, run_one, hn]

theorem within_run_heeding (b : Config.Bursts) (g : Transaction.Generator)
    (endpoints : List Endpoint) (size : Nat) : (run b g endpoints size).Within heeding :=
  (launches_heeding g).within_burstRun b endpoints size

theorem comesTo_run_of_ends (h : Ends b g endpoints size host (launched size w₀) times w) :
    (run b g endpoints size).ComesTo host w₀ times.length (reported times.length w) :=
  comesTo_run.2 ⟨times, w, rfl, h, rfl⟩

section

variable (b g endpoints size host) (w₀ : World activities)

/-- How a burst goes on after a submission. When the pause is over the next submission begins, or
nothing is left to send. The burst ends before if the run is cancelled. -/
inductive GoesOn (all : List Nat) (w₁ w₂ : World activities) : Prop
  | next (hless : all.length < size) (h : Begins b g endpoints size host (launched size w₀) all w₂)
      (hnow : w₂.now = w₁.now + b.pause.toNanos)
  | complete (hall : all.length = size) (h : (run b g endpoints size).ComesTo host w₀ size w₂)
      (hactive : w₂.cancelled = false) (hnow : w₂.now = w₁.now + b.pause.toNanos)
  | cancelled (h : (run b g endpoints size).ComesTo host w₀ all.length w₂)
      (hcancelled : Solo.CancelledAt host (Solo.start w₀ (run b g endpoints size)) w₂.now)
      (hle : w₁.now ≤ w₂.now) (hnow : w₂.now ≤ w₁.now + b.pause.toNanos)

/-- What is true of a burst whose next submission is about to begin. -/
structure Sending (times : List Nat) (w : World activities) : Prop where
  active : w.cancelled = false
  unfinished : times.length < size
  passes : ∃ k, Solo.run host k (Solo.start w₀ (run b g endpoints size)) =
    Solo.start w (.loop times.length (turn b g endpoints size) report)
  goes_on : ∀ hash w₁, (submission g endpoints).ComesTo host w hash w₁ →
    ∃ w₂, GoesOn b g endpoints size host w₀ (times ++ [w₁.now - w.now]) w₁ w₂

/-- What is true of a burst that has returned the number of its submissions. -/
structure Returned (sent : Nat) (w' : World activities) : Prop where
  le : sent ≤ size
  counted : Counted sent w₀ w'
  /-- As many submissions are reported as have begun. -/
  begun_iff : ∀ k, (∃ times w, times.length = k ∧
    Begins b g endpoints size host (launched size w₀) times w) ↔ k < sent
  /-- If the run is not cancelled, all are reported when the last pause is over. -/
  complete : w'.cancelled = false → sent = size ∧ ∃ times w,
    Spent b g endpoints size host (launched size w₀) times w ∧ times.length = size ∧
      w'.now = w₀.now + elapsed times + size * b.pause.toNanos

/-- When a burst ends. -/
structure Prompt : Prop where
  cancelled : ∀ moment, Solo.CancelledAt host (Solo.start w₀ (run b g endpoints size)) moment →
    (∀ times w, Begins b g endpoints size host (launched size w₀) times w → w.now ≤ moment) ∧
    ∃ sent w', (run b g endpoints size).ComesTo host w₀ sent w' ∧ w'.now = moment ∧
      w'.cancelled = true
  outside : ∀ t, host.cancelAt = some t →
    ∃ sent w', (run b g endpoints size).ComesTo host w₀ sent w' ∧ w'.now ≤ max w₀.now t
  ends : (∃ sent w', (run b g endpoints size).ComesTo host w₀ sent w') ∨
    Solo.Hangs host (Solo.start w₀ (run b g endpoints size))

end

theorem Begins.goes_on (hclock : host.clock = {})
    (h : Begins b g endpoints size host (launched size w₀) times w)
    (hsubmit : (submission g endpoints).ComesTo host w hash w₁) :
    ∃ w₂, GoesOn b g endpoints size host w₀ (times ++ [w₁.now - w.now]) w₁ w₂ := by
  rcases exists_rests host w₁ b.pause with ⟨token, w₂, hrests⟩
  -- The pause is over, or it was cut short and the submission before it is the last one.
  cases token with
  | false =>
      have hspent := h.1.next h.2 hsubmit hrests
      have hnow := hrests.now_eq hclock
      rcases Nat.lt_or_eq_of_le hspent.length_le with hless | hall
      · exact ⟨w₂, .next hless ⟨hspent, hless⟩ hnow⟩
      · have hreturn := comesTo_run_of_ends (.complete hspent hall)
        rw [hall] at hreturn
        exact ⟨_, .complete hall hreturn hspent.active hnow⟩
  | true =>
      have hreturn := comesTo_run_of_ends (.cancelled h hsubmit hrests)
      have hcancelled := Solo.cancelledAt_of_comesTo (within_run_heeding b g endpoints size) hreturn
        hrests.cancelled_eq
      have hbetween := hrests.now_between hclock
      exact ⟨_, .cancelled hreturn hcancelled hbetween.1 hbetween.2⟩

theorem Begins.sending (hclock : host.clock = {})
    (h : Begins b g endpoints size host (launched size w₀) times w) :
    Sending b g endpoints size host w₀ times w where
  active := h.1.active
  unfinished := h.2
  passes := h.1.passes
  goes_on _ _ hsubmit := h.goes_on hclock hsubmit

/-- A burst whose run is not cancelled sends all its transactions. -/
theorem complete_of_active {sent : Nat} (hclock : host.clock = {})
    (h : (run b g endpoints size).ComesTo host w₀ sent w') (hw' : w'.cancelled = false) :
    sent = size ∧ ∃ times w, Spent b g endpoints size host (launched size w₀) times w ∧
      times.length = size ∧ w'.now = w₀.now + elapsed times + size * b.pause.toNanos := by
  rcases comesTo_run.1 h with ⟨times, w, rfl, hends, rfl⟩
  replace hw' : w.cancelled = false := hw'
  cases hends with
  | unbegun hw => exact absurd (hw.symm.trans hw') (by decide)
  | complete hspent hall =>
      have hnow := hspent.now_eq hclock
      rw [hall] at hnow
      exact ⟨hall, times, w, hspent, hall, hnow⟩
  | cancelled _ _ hrests => exact absurd (hrests.cancelled_eq.symm.trans hw') (by decide)

/-- A burst ends, or waits for a reply that never comes. -/
theorem comesTo_or_hangs (b : Config.Bursts) (endpoints : List Endpoint) (host : Host activities)
    (hserves : serves g size w₀.supply = true) :
    (∃ sent w', (run b g endpoints size).ComesTo host w₀ sent w') ∨
      Solo.Hangs host (Solo.start w₀ (run b g endpoints size)) := by
  have hsteady : Steady host (turn b g endpoints size) 0 (launched size w₀) := steady hserves
  -- There is no lap after as many as the burst has submissions.
  rcases laps_or_ends hsteady (size + 1) with ⟨s, w, hlaps⟩ | ⟨sent, w, h⟩ | hstalls
  · cases hw : (launched size w₀).cancelled with
    | true => cases (eq_of_laps hw hlaps).1
    | false =>
        rcases exists_spent hw hlaps with ⟨-, times, hlength, hspent⟩
        have hle := hspent.length_le
        rw [hlength] at hle
        exact absurd hle (Nat.not_succ_le_self size)
  · rcases comesTo_turns.1 h with ⟨times, rfl, hends⟩
    exact .inl ⟨_, _, comesTo_run_of_ends hends⟩
  · exact .inr (Solo.hangs_of_run (n := 1) (hstalls _ report))

/-- A burst whose run is cancelled is over at that moment. -/
theorem exists_comesTo_run {moment : Nat} (hserves : serves g size w₀.supply = true)
    (h : Solo.CancelledAt host (Solo.start w₀ (run b g endpoints size)) moment) :
    ∃ sent w', (run b g endpoints size).ComesTo host w₀ sent w' ∧ w'.now = moment ∧
      w'.cancelled = true := by
  have hsteady : Steady host (turn b g endpoints size) 0 (launched size w₀) := steady hserves
  rcases h with ⟨n, hn, hmoment⟩
  -- One more step makes up for the line that is written before the loop.
  have hlater := Solo.cancelled_run_of_le hn (Nat.le_add_left n 1)
  rw [Solo.run_add, run_one] at hlater
  have hquits : ∀ s (w : World activities), w.cancelled = true →
      ∃ sent w', (turn b g endpoints size s).ComesTo host w (.inr sent) w' :=
    fun s w hw => ⟨s, w, comesTo_turn.2 (.inl ⟨.inr hw, rfl, rfl⟩)⟩
  rcases comesTo_of_cancelled hsteady hquits hlater with ⟨sent, w, hturns⟩
  rcases comesTo_turns.1 hturns with ⟨times, rfl, hends⟩
  have hreturn := comesTo_run_of_ends hends
  exact ⟨_, _, hreturn, Solo.now_of_cancelledAt (within_run_heeding b g endpoints size) hreturn
    ⟨n, hn, hmoment⟩⟩

theorem returned_of_comesTo {sent : Nat} (hclock : host.clock = {})
    (h : (run b g endpoints size).ComesTo host w₀ sent w') :
    Returned b g endpoints size host w₀ sent w' := by
  have hbegun : ∀ k, (∃ times w, times.length = k ∧
      Begins b g endpoints size host (launched size w₀) times w) ↔ k < sent := by
    rcases comesTo_run.1 h with ⟨times, w, rfl, hends, -⟩
    exact hends.begun_iff
  refine ⟨Nat.le_of_not_lt fun hmore => ?_, counted_of_comesTo h, hbegun,
    complete_of_active hclock h⟩
  rcases (hbegun size).2 hmore with ⟨times, w, hlength, -, hless⟩
  exact absurd hlength (Nat.ne_of_lt hless)

theorem prompt_of_serves (hserves : serves g size w₀.supply = true) :
    Prompt b g endpoints size host w₀ where
  cancelled _ h := by
    refine ⟨fun times w hbegins => ?_, exists_comesTo_run hserves h⟩
    rcases hbegins.1.passes with ⟨k, hk⟩
    exact Solo.now_le_of_cancelledAt hk hbegins.1.active h
  outside t ht := by
    rcases comesTo_or_hangs b endpoints host hserves with ⟨sent, w', h⟩ | ⟨n, hstuck⟩
    · exact ⟨sent, w', h, Solo.now_le_of_cancelAt (within_run_heeding b g endpoints size) h ht⟩
    · cases ht.symm.trans hstuck.forever
  ends := comesTo_or_hangs b endpoints host hserves

/-- How a burst that starts in some world sends its transactions and reports them. -/
structure SendsWhatItReports (b : Config.Bursts) (g : Transaction.Generator)
    (endpoints : List Endpoint) (size : Nat) (host : Host activities) (w₀ : World activities) :
    Prop where
  /-- Cancelled before, a burst sends nothing. -/
  unbegun : w₀.cancelled = true → ∃ w', (run b g endpoints size).ComesTo host w₀ 0 w' ∧
    w'.now = w₀.now ∧ w'.past = w₀.past ∧ w'.counters = w₀.counters
  /-- The first submission begins at once. -/
  first : w₀.cancelled = false → 0 < size →
    Begins b g endpoints size host (launched size w₀) [] (launched size w₀)
  /-- Each other submission begins exactly when the pause after the one before is over. -/
  next : ∀ times time w₂, Begins b g endpoints size host (launched size w₀) (times ++ [time]) w₂ →
    ∃ w hash w₁, Begins b g endpoints size host (launched size w₀) times w ∧
      (submission g endpoints).ComesTo host w hash w₁ ∧ w₁.now = w.now + time ∧
      w₂.now = w₁.now + b.pause.toNanos
  sending : ∀ times w, Begins b g endpoints size host (launched size w₀) times w →
    Sending b g endpoints size host w₀ times w
  returned : ∀ sent w', (run b g endpoints size).ComesTo host w₀ sent w' →
    Returned b g endpoints size host w₀ sent w'
  prompt : serves g size w₀.supply = true → Prompt b g endpoints size host w₀
  /-- A stretch of a stream that serves the draws is enough for a burst. -/
  served : ∀ σ start, Served σ g.generate →
    ∃ m, ∀ more, serves g size (excerpt σ start m ++ more) = true

/-- A burst sends what it reports. If its run is cancelled it ends at that moment, and a submission
that is on its way then, or whose pause is not over, is the last one that counts. -/
theorem run_sends_what_it_reports (b : Config.Bursts) (g : Transaction.Generator)
    (endpoints : List Endpoint) (size : Nat) (host : Host activities) (hclock : host.clock = {})
    (w₀ : World activities) : SendsWhatItReports b g endpoints size host w₀ where
  unbegun hw := ⟨_, comesTo_run_of_ends (.unbegun hw), rfl, rfl, rfl⟩
  first hw hpos := ⟨.start hw, hpos⟩
  next _ _ _ h := h.1.of_append hclock
  sending _ _ h := h.sending hclock
  returned _ _ h := returned_of_comesTo hclock h
  prompt hserves := prompt_of_serves hserves
  served _ start hσ := exists_serves hσ start size

/-- The first of three submissions is accepted. The second one is on its way when the run is
cancelled, so it is abandoned, and it is the last one that is reported. -/
theorem run_sends_what_it_reports_abandoned :
    let b : Config.Bursts := { pause := .ofSecs 1 }
    let g := Transaction.Generator.ofPool .development
    let endpoints : List Endpoint := [⟨"Validator", "http://one"⟩]
    let host : Host activities :=
      { transport := fun _ _ =>
          { answer := some { result := some (.text "0x2a") }, delay := some (.ofSecs 2) }
        cancelAt := some 4000000000 }
    let words : Random.Supply := [0, 0, 9223372036854775808, 0, 0]
    let world : World activities := { supply := words ++ words ++ words }
    let begins := Begins b g endpoints 3 host (launched 3 world)
    serves g 3 world.supply = true ∧ ∃ w', (run b g endpoints 3).ComesTo host world 2 w' ∧
      w'.now = 4000000000 ∧ w'.cancelled = true ∧
      w'.sent.map Prod.fst = [3000000000, 0] ∧ w'.counters.successful = 1 ∧
      w'.counters.failed = 1 ∧ Counted 2 world w' ∧
      (∃ times w, times.length = 1 ∧ begins times w) ∧
      ¬ ∃ times w, times.length = 2 ∧ begins times w := by
  intro b g endpoints host words world begins
  obtain ⟨w', hreturn, hnow, hcancelled, hsent, hsuccessful, hfailed⟩ : ∃ w' : World activities,
      (run b g endpoints 3).ComesTo host world 2 w' ∧ w'.now = 4000000000 ∧
      w'.cancelled = true ∧ w'.sent.map Prod.fst = [3000000000, 0] ∧
      w'.counters.successful = 1 ∧ w'.counters.failed = 1 := by
    have hresult : (Solo.run host 60 (Solo.start world (run b g endpoints 3))).strand.result? =
        some 2 := by
      decide +kernel
    refine ⟨_, exists_comesTo_of_result hresult, ?_⟩
    decide +kernel
  have hreturned := (run_sends_what_it_reports b g endpoints 3 host rfl world).returned 2 w' hreturn
  refine ⟨by decide +kernel, w', hreturn, hnow, hcancelled, hsent, hsuccessful, hfailed,
    hreturned.counted, (hreturned.begun_iff 1).2 (by decide), fun h => ?_⟩
  exact absurd ((hreturned.begun_iff 2).1 h) (by decide)

end Burst
end Activity
end TxWorkload
