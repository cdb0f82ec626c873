import TxWorkload.Proofs.Routine.Outcome

/-!
# Rest — sleep that races against cancellation

A sleep ends when it should, or is cut short when the run is cancelled, or is left out if that has
happened before. Apart from the time that passes it changes nothing.
-/

namespace TxWorkload
namespace Routine

variable {S : Signature} {α β : Type} {host : Host S} {w w₁ w' : World S}

/-! ## Sleep -/

/-- A sleep that races against cancellation, and whether the run is cancelled in the end: it is left
out, or ends when it should, or is cut short. -/
inductive Rests (host : Host S) (w : World S) (d : Duration) : Bool → World S → Prop
  | leftOut (hw : w.cancelled = true) : Rests host w d true w
  | slept (hw : w.cancelled = false)
      (htime : w.now < host.clock.deadline w.now d →
        ∀ t, host.cancelAt = some t → host.clock.deadline w.now d < t) :
      Rests host w d false
        { w with now := host.clock.deadline w.now d, tickets := w.tickets + 1 }
  | cutShort {t : Nat} (hw : w.cancelled = false) (hcancel : host.cancelAt = some t)
      (hlater : w.now < host.clock.deadline w.now d) (htime : t ≤ host.clock.deadline w.now d) :
      Rests host w d true
        { w with now := max w.now t, cancelled := true, tickets := w.tickets + 1 }

theorem Rests.cancelled_eq {d : Duration} {token : Bool} (h : Rests host w d token w') :
    w'.cancelled = token := by
  cases h with
  | leftOut hw => exact hw
  | slept hw _ => exact hw
  | cutShort _ _ _ _ => rfl

theorem exists_rests (host : Host S) (w : World S) (d : Duration) :
    ∃ token w', Rests host w d token w' := by
  cases hw : w.cancelled with
  | true => exact ⟨true, w, .leftOut hw⟩
  | false =>
      -- A sleep that takes no time is not cut short, not even at the moment of the cancellation.
      by_cases hcut : w.now < host.clock.deadline w.now d ∧
          ∃ t, host.cancelAt = some t ∧ t ≤ host.clock.deadline w.now d
      · rcases hcut with ⟨hlater, t, hcancel, htime⟩
        exact ⟨true, _, .cutShort hw hcancel hlater htime⟩
      · refine ⟨false, _, .slept hw fun hlater t hcancel => ?_⟩
        apply Nat.lt_of_not_le
        intro htime
        exact hcut ⟨hlater, t, hcancel, htime⟩

/-- Nothing else happens during a sleep. -/
theorem Rests.undisturbed {d : Duration} {token : Bool} (h : Rests host w d token w') :
    w'.counters = w.counters ∧ w'.past = w.past ∧ w'.journal = w.journal ∧
      w'.supply = w.supply := by
  cases h with
  | leftOut _ => exact ⟨rfl, rfl, rfl, rfl⟩
  | slept _ _ => exact ⟨rfl, rfl, rfl, rfl⟩
  | cutShort _ _ _ _ => exact ⟨rfl, rfl, rfl, rfl⟩

/-- A sleep that is not cut short lasts as long as it should, by an ideal clock. -/
theorem Rests.now_eq {d : Duration} (hclock : host.clock = {}) (h : Rests host w d false w') :
    w'.now = w.now + d.toNanos := by
  cases h with
  | slept _ _ => rw [hclock, Clock.deadline_ideal]

theorem Rests.now_lt {d : Duration} (hspan : 0 < host.clock.span d)
    (h : Rests host w d false w') : w.now < w'.now := by
  cases h with
  | slept _ _ => exact host.clock.lt_deadline w.now hspan

theorem Rests.now_between {d : Duration} {token : Bool} (hclock : host.clock = {})
    (h : Rests host w d token w') : w.now ≤ w'.now ∧ w'.now ≤ w.now + d.toNanos := by
  cases h with
  | leftOut _ => exact ⟨Nat.le_refl _, Nat.le_add_right _ _⟩
  | slept _ _ =>
      rw [hclock, Clock.deadline_ideal]
      exact ⟨Nat.le_add_right _ _, Nat.le_refl _⟩
  | cutShort _ _ _ htime =>
      rw [hclock, Clock.deadline_ideal] at htime
      exact ⟨Nat.le_max_left _ _, Nat.max_le.2 ⟨Nat.le_add_right _ _, htime⟩⟩

/-- The earlier one of a moment and the cancellation from outside, which is not noticed before
now. -/
def Host.cutAt (host : Host S) (now moment : Nat) : Nat :=
  match host.cancelAt with
  | none => moment
  | some c => min moment (max now c)

/-- A run that is cancelled leaves no time for a sleep. -/
theorem Rests.eq_of_cancelled {d : Duration} {token : Bool} (h : Rests host w d token w')
    (hw : w.cancelled = true) : w' = w := by
  cases h with
  | leftOut _ => rfl
  | slept hactive _ => exact absurd (hw.symm.trans hactive) (by decide)
  | cutShort hactive _ _ _ => exact absurd (hw.symm.trans hactive) (by decide)

theorem Rests.now_eq_cutAt {d : Duration} {token : Bool} (h : Rests host w d token w')
    (hw : w.cancelled = false) : w'.now = host.cutAt w.now (host.clock.deadline w.now d) := by
  have hle := host.clock.le_deadline w.now d
  unfold Host.cutAt
  cases h with
  | leftOut hcancelled => exact absurd (hcancelled.symm.trans hw) (by decide)
  | slept _ htime =>
      cases hc : host.cancelAt with
      | none => rfl
      | some c =>
          refine (Nat.min_eq_left ?_).symm
          by_cases hlater : w.now < host.clock.deadline w.now d
          · exact Nat.le_trans (Nat.le_of_lt (htime hlater c hc)) (Nat.le_max_right _ _)
          · exact Nat.le_trans (Nat.le_of_not_lt hlater) (Nat.le_max_left _ _)
  | cutShort _ hcancel _ htime =>
      rw [hcancel]
      exact (Nat.min_eq_right (Nat.max_le.2 ⟨hle, htime⟩)).symm

theorem Rests.cancelled_iff {d : Duration} {token : Bool} (h : Rests host w d token w') :
    w'.cancelled = true ↔ w.cancelled = true ∨ w.now < host.clock.deadline w.now d ∧
      ∃ c, host.cancelAt = some c ∧ c ≤ host.clock.deadline w.now d := by
  cases h with
  | leftOut hw => simp [hw]
  | slept hw htime =>
      refine ⟨.inl, ?_⟩
      rintro (hcancelled | ⟨hlater, c, hc, hle⟩)
      · exact hcancelled
      · exact absurd (htime hlater c hc) (Nat.not_lt.2 hle)
  | cutShort _ hcancel hlater htime => exact iff_of_true rfl (.inr ⟨hlater, _, hcancel, htime⟩)

/-- A timer that races against cancellation. -/
theorem rests_iff_raced {d : Duration} {token : Bool} (hw : w.cancelled = false) :
    (∃ answer, Raced host w (.timer d) answer w' ∧ token = w'.cancelled) ↔
      Rests host w d token w' := by
  have hdue : (w.begin host (.timer d)).2.due = some (host.clock.deadline w.now d) := rfl
  have hactive : ∀ {w : World S}, w.cancelled = false → ∀ now,
      ({ w with now := now, tickets := w.tickets + 1 } : World S) =
        World.deliver { (w.begin host (.timer d)).1 with now := now, cancelled := false }
          (w.begin host (.timer d)).2 := by
    intro w hw now
    simp only [World.deliver, World.begin, hw]
    rfl
  constructor
  · rintro ⟨answer, h, rfl⟩
    cases h with
    | atOnce hend h =>
        -- Such a timer has run out before it is noticed that the run may be cancelled now.
        cases hdue.symm.trans hend
        have hnow : host.clock.deadline w.now d = w.now :=
          Nat.le_antisymm h (host.clock.le_deadline w.now d)
        have hslept := @Rests.slept _ host w d hw fun hlt => by omega
        rw [hnow] at hslept
        have hcancelled : (World.deliver (w.begin host (.timer d)).1
            (w.begin host (.timer d)).2).cancelled = false := hw
        rw [hcancelled]
        exact hslept
    | inTime _ hend h hcancel =>
        cases hdue.symm.trans hend
        have hslept := @Rests.slept _ host w d hw fun _ => hcancel
        rw [hactive hw] at hslept
        exact hslept
    | tooLate hcancelled _ => exact absurd (hcancelled.symm.trans hw) (by decide)
    | cutOff _ hcancel h =>
        rcases h _ hdue with ⟨hlater, htime⟩
        exact .cutShort hw hcancel hlater htime
  · intro h
    cases h with
    | leftOut hcancelled => exact absurd (hcancelled.symm.trans hw) (by decide)
    | slept _ htime =>
        rcases Nat.eq_or_lt_of_le (host.clock.le_deadline w.now d) with hnow | hlater
        · refine ⟨some (), ?_, hw.symm⟩
          have honce := Raced.atOnce (w := w) hdue (Nat.le_of_eq hnow.symm)
          rw [← hnow]
          exact honce
        · refine ⟨some (), ?_, hw.symm⟩
          rw [hactive hw]
          exact .inTime hw hdue hlater (htime hlater)
    | cutShort _ hcancel hlater htime =>
        refine ⟨none, ?_, rfl⟩
        refine .cutOff hw hcancel ?_
        intro t ht
        cases hdue.symm.trans ht
        exact ⟨hlater, htime⟩

theorem comesTo_sleep {d : Duration} {token : Bool} :
    (sleepOrCancelled d : Routine S Bool).ComesTo host w token w' ↔ Rests host w d token w' := by
  refine (comesTo_unlessCancelled .checkpoint fun _ => rfl).trans ?_
  rw [comesTo_race]
  simp only [comesTo_isCancelled]
  constructor
  · rintro (⟨hw, rfl, rfl⟩ | ⟨hw, answer, w₁, hraced, rfl, rfl⟩)
    · exact .leftOut hw
    · exact (rests_iff_raced hw).1 ⟨answer, hraced, rfl⟩
  · intro h
    cases hw : w.cancelled with
    | true =>
        cases h with
        | leftOut _ => exact .inl ⟨rfl, rfl, rfl⟩
        | slept hactive _ => exact absurd (hw.symm.trans hactive) (by decide)
        | cutShort hactive _ _ _ => exact absurd (hw.symm.trans hactive) (by decide)
    | false =>
        rcases (rests_iff_raced hw).2 h with ⟨answer, hraced, htoken⟩
        exact .inr ⟨rfl, answer, w', hraced, htoken, rfl⟩

/-- A sleep, and what is returned when it has been cut short or is over. -/
theorem comesTo_sleep_bind {d : Duration} {quit next a : α} :
    (sleepOrCancelled d >>= fun token =>
      if token = true then pure quit else pure next : Routine S α).ComesTo host w a w' ↔
      ∃ token, Rests host w d token w' ∧ a = if token = true then quit else next := by
  rw [comesTo_bind]
  refine exists_congr fun token => ?_
  have hdone : ∀ {w₁ : World S}, (if token = true then pure quit else pure next :
      Routine S α).ComesTo host w₁ a w' ↔
      (a = if token = true then quit else next) ∧ w' = w₁ := by
    cases token with
    | true => exact comesTo_pure
    | false => exact comesTo_pure
  simp only [comesTo_sleep, hdone]
  constructor
  · rintro ⟨w₁, hrests, rfl, rfl⟩
    exact ⟨hrests, rfl⟩
  · rintro ⟨hrests, rfl⟩
    exact ⟨w', hrests, rfl, rfl⟩

end Routine
end TxWorkload
