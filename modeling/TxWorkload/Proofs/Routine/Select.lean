import TxWorkload.Proofs.Routine.Fate
import TxWorkload.Proofs.Routine.Rest

/-!
# Select — which of two ready branches is taken

A select that is not biased may look at its two branches in either order, and takes the first one
that it finds ready. For a sleep that races against cancellation the order makes no difference: the
branch of the timer looks whether the run is cancelled, so both branches tell the same when both are
ready. Such a sleep ends when the timer ends or the run is cancelled, whichever comes first, and
tells whether the run is cancelled then.
-/

namespace TxWorkload
namespace Routine

variable {S : Signature} {α β : Type} {host : Host S} {w w' : World S}

/-! ## Any order of branches -/

/-- A step of a run whose selects look at their branches in any order. The first look of a select
may pass over a cancellation, and a wait that has ended may win in a run that is cancelled. -/
inductive Solo.Picks (host : Host S) : Solo S α → Solo S α → Prop
  | inOrder {x y : Solo S α} (h : x.step host = some y) : Picks host x y
  | passOver {w : World S} {next : Bool → Routine S α} :
      Picks host ⟨w, .active (.perform .checkpoint next)⟩ ⟨w, .active (next false)⟩
  | waitFirst {β : Type} {w : World S} {pending : World.Pending β}
      {next : Option β → Routine S α} (h : w.hasEnded pending = true) :
      Picks host ⟨w, .contested pending next⟩
        ⟨w.deliver pending, .active (next (some pending.answer))⟩

/-- Whether every run comes to a state with a property, whatever steps it takes. -/
inductive Inevitably {σ : Type 1} (R : σ → σ → Prop) (P : σ → Prop) : σ → Prop
  | now {x : σ} (h : P x) : Inevitably R P x
  | later {x : σ} (hgoes : ∃ y, R x y) (h : ∀ y, R x y → Inevitably R P y) : Inevitably R P x

/-- A select between the cancellation of the run and a timer, with what its branches do. -/
def timerSelect (d : Duration) (branch : Option Unit → Routine S Bool) : Routine S Bool := do
  if ← checkpoint then return true else .race (.timer d) branch

/-- The branches of a sleep as they are written: the one of the cancellation tells that the run is
cancelled, and the one of the timer looks. -/
def sleepBranch : Option Unit → Routine S Bool
  | none => return true
  | some () => isCancelled

/-- A sleep is such a select, with branches that both look. -/
theorem sleepOrCancelled_eq (d : Duration) :
    (sleepOrCancelled d : Routine S Bool) = timerSelect d fun _ => isCancelled :=
  rfl

/-- Whether a sleep has ended in a world, but for the number of waits so far, and has told whether
the run is cancelled. -/
def Solo.SleptTo (w' : World S) (x : Solo S Bool) : Prop :=
  ∃ tickets, x = ⟨{ w' with tickets }, .active (.done w'.cancelled)⟩

/-- Whether the branches tell the truth: the one of the timer looks whether the run is cancelled,
and the one of the cancellation looks as well or knows it. -/
structure Truthful (branch : Option Unit → Routine S Bool) : Prop where
  timer : branch (some ()) = isCancelled
  cancellation : branch none = isCancelled ∨ branch none = pure true

theorem truthful_isCancelled : Truthful (S := S) fun _ => isCancelled where
  timer := rfl
  cancellation := .inl rfl

theorem truthful_sleepBranch : Truthful (S := S) sleepBranch where
  timer := rfl
  cancellation := .inr rfl

section

variable {P : Solo S α → Prop} {x y : Solo S α}

theorem inevitably_of_step (hs : x.step host = some y)
    (honly : ∀ z, x.Picks host z → z = y) (h : Inevitably (Solo.Picks host) P y) :
    Inevitably (Solo.Picks host) P x :=
  .later ⟨y, .inOrder hs⟩ fun z hz => honly z hz ▸ h

end

/-! ## Sleep in any order -/

section

variable {d : Duration} {branch : Option Unit → Routine S Bool}

/-- To look whether the run is cancelled ends a sleep. -/
theorem inevitably_isCancelled (tickets : Nat) :
    Inevitably (Solo.Picks host) (Solo.SleptTo w')
      ⟨{ w' with tickets }, .active isCancelled⟩ := by
  have hs : (⟨{ w' with tickets }, .active isCancelled⟩ : Solo S Bool).step host =
      some ⟨{ w' with tickets }, .active (.done w'.cancelled)⟩ := Solo.step_perform rfl
  refine inevitably_of_step hs (fun z hz => ?_) (.now ⟨tickets, rfl⟩)
  cases hz with
  | inOrder h => exact Option.some.inj (h.symm.trans hs)

/-- What a branch of a sleep does in a run that is cancelled. -/
theorem Truthful.inevitably_none (htruthful : Truthful branch) (hw' : w'.cancelled = true)
    (tickets : Nat) :
    Inevitably (Solo.Picks host) (Solo.SleptTo w')
      ⟨{ w' with tickets }, .active (branch none)⟩ := by
  rcases htruthful.cancellation with hnone | hnone
  · rw [hnone]
    exact inevitably_isCancelled tickets
  · rw [hnone]
    refine .now ⟨tickets, ?_⟩
    rw [hw']
    rfl

/-- In a run that is cancelled either branch may win, and tells the same. -/
theorem Truthful.inevitably_contested (htruthful : Truthful branch) (hw' : w'.cancelled = true)
    {pending : World.Pending Unit} (hpending : pending.cancels = false) (tickets : Nat) :
    Inevitably (Solo.Picks host) (Solo.SleptTo w')
      ⟨{ w' with tickets }, .contested pending branch⟩ := by
  have hs : (⟨{ w' with tickets }, .contested pending branch⟩ : Solo S Bool).step host =
      some ⟨{ w' with tickets }, .active (branch none)⟩ := by
    simp [Solo.step, Strand.advance, hw']
  refine .later ⟨_, .inOrder hs⟩ fun z hz => ?_
  cases hz with
  | inOrder h =>
      cases h.symm.trans hs
      exact htruthful.inevitably_none hw' tickets
  | waitFirst hended =>
      have hdeliver : World.deliver { w' with tickets } pending = { w' with tickets } := by
        simp [World.deliver, hpending]
      rw [hdeliver, htruthful.timer]
      exact inevitably_isCancelled tickets

/-- While the timer still runs there is one way to go on. -/
theorem inevitably_of_late {u : World S} {pending : World.Pending β}
    {next : Option β → Routine S Bool} {x : Solo S Bool} (hlate : u.hasEnded pending = false)
    (hs : (⟨u, .contested pending next⟩ : Solo S Bool).step host = some x)
    (h : Inevitably (Solo.Picks host) (Solo.SleptTo w') x) :
    Inevitably (Solo.Picks host) (Solo.SleptTo w') ⟨u, .contested pending next⟩ := by
  refine inevitably_of_step hs (fun z hz => ?_) h
  cases hz with
  | inOrder h => exact Option.some.inj (h.symm.trans hs)
  | waitFirst hended => exact absurd (hlate.symm.trans hended) Bool.false_ne_true

/-- A timer that has run out wins in a run that is not cancelled. -/
theorem inevitably_of_ended {u : World S} {pending : World.Pending β}
    {next : Option β → Routine S Bool} (hu : u.cancelled = false)
    (hended : u.hasEnded pending = true)
    (h : Inevitably (Solo.Picks host) (Solo.SleptTo w')
      ⟨u.deliver pending, .active (next (some pending.answer))⟩) :
    Inevitably (Solo.Picks host) (Solo.SleptTo w') ⟨u, .contested pending next⟩ := by
  have hs : (⟨u, .contested pending next⟩ : Solo S Bool).step host =
      some ⟨u.deliver pending, .active (next (some pending.answer))⟩ := by
    simp [Solo.step, Strand.advance, hu, hended]
  refine inevitably_of_step hs (fun z hz => ?_) h
  cases hz with
  | inOrder h => exact Option.some.inj (h.symm.trans hs)
  | waitFirst _ => rfl

/-- A race begins in one way. -/
theorem inevitably_of_race {u : World S} {what : Wait S β} {next : Option β → Routine S Bool}
    {x : Solo S Bool} (hs : (⟨u, .active (.race what next)⟩ : Solo S Bool).step host = some x)
    (h : Inevitably (Solo.Picks host) (Solo.SleptTo w') x) :
    Inevitably (Solo.Picks host) (Solo.SleptTo w') ⟨u, .active (.race what next)⟩ := by
  refine inevitably_of_step hs (fun z hz => ?_) h
  cases hz with
  | inOrder h => exact Option.some.inj (h.symm.trans hs)

/-- A timer that runs out at once ends a sleep, whether the run is cancelled or not. -/
theorem Truthful.inevitably_atOnce (htruthful : Truthful branch)
    (hnow : host.clock.deadline w.now d ≤ w.now) :
    Inevitably (Solo.Picks host) (Solo.SleptTo w) ⟨w, .active (.race (.timer d) branch)⟩ := by
  have hs : (⟨w, .active (.race (.timer d) branch)⟩ : Solo S Bool).step host =
      some ⟨{ w with tickets := w.tickets + 1 }, .active (branch (some ()))⟩ := by
    simp [Solo.step, Strand.advance, World.begin, World.hasEnded, World.deliver, hnow]
  refine inevitably_of_race hs ?_
  rw [htruthful.timer]
  exact inevitably_isCancelled _

/-- A select that has passed over a cancellation comes back to it at once. -/
theorem Truthful.inevitably_passedOver (htruthful : Truthful branch) (hw : w.cancelled = true) :
    Inevitably (Solo.Picks host) (Solo.SleptTo w) ⟨w, .active (.race (.timer d) branch)⟩ := by
  by_cases hnow : host.clock.deadline w.now d ≤ w.now
  · exact htruthful.inevitably_atOnce hnow
  · have hs : (⟨w, .active (.race (.timer d) branch)⟩ : Solo S Bool).step host =
        some ⟨{ w with tickets := w.tickets + 1 },
          .contested (w.begin host (.timer d)).2 branch⟩ := by
      simp [Solo.step, Strand.advance, World.begin, World.hasEnded, hnow]
    exact inevitably_of_race hs (htruthful.inevitably_contested hw rfl _)

/-- A timer that still runs ends when it should, or is cut short. -/
theorem Truthful.inevitably_racing (htruthful : Truthful branch) {token : Bool}
    (h : Rests host w d token w') (hw : w.cancelled = false)
    (hlater : w.now < host.clock.deadline w.now d) :
    Inevitably (Solo.Picks host) (Solo.SleptTo w') ⟨w, .active (.race (.timer d) branch)⟩ := by
  have hdue : (w.begin host (.timer d)).2.due = some (host.clock.deadline w.now d) := rfl
  have hlate : ∀ due, (w.begin host (.timer d)).2.due = some due → w.now < due := by
    intro due h
    cases hdue.symm.trans h
    exact hlater
  have hruns : World.hasEnded { (w.begin host (.timer d)).1 with now := w.now, cancelled := false }
      (w.begin host (.timer d)).2 = false := decide_eq_false (Nat.not_le.2 hlater)
  refine inevitably_of_race (Solo.step_begin hw hlate) ?_
  cases h with
  | leftOut hcancelled => exact absurd (hcancelled.symm.trans hw) (by decide)
  | slept _ htime =>
      refine inevitably_of_late hruns (Solo.step_inTime hdue hlater (htime hlater)) ?_
      have hended : World.hasEnded
          { (w.begin host (.timer d)).1 with
            now := host.clock.deadline w.now d, cancelled := false }
          (w.begin host (.timer d)).2 = true := decide_eq_true (Nat.le_refl _)
      refine inevitably_of_ended rfl hended ?_
      have hdelivery : Solo.delivery host w (.timer d) (host.clock.deadline w.now d) =
          { w with now := host.clock.deadline w.now d, tickets := w.tickets + 1 } := by
        simp only [Solo.delivery, World.deliver, World.begin, hw]
        rfl
      change Inevitably _ _ (Solo.start (Solo.delivery host w (.timer d) _) (branch (some ())))
      rw [hdelivery, htruthful.timer]
      exact inevitably_isCancelled _
  | @cutShort t _ hcancel _ htime =>
      refine inevitably_of_late hruns (Solo.step_cutOff hcancel fun due h => ?_) ?_
      · cases hdue.symm.trans h
        exact ⟨hlater, htime⟩
      · exact htruthful.inevitably_contested rfl rfl _

/-- A sleep that is not cancelled before it begins ends when it should, or is cut short. -/
theorem Truthful.inevitably_active (htruthful : Truthful branch) {token : Bool}
    (h : Rests host w d token w') (hw : w.cancelled = false) :
    Inevitably (Solo.Picks host) (Solo.SleptTo w') ⟨w, .active (.race (.timer d) branch)⟩ := by
  by_cases hlater : w.now < host.clock.deadline w.now d
  · exact htruthful.inevitably_racing h hw hlater
  · have hpassed := Nat.le_of_not_lt hlater
    cases h with
    | leftOut hcancelled => exact absurd (hcancelled.symm.trans hw) (by decide)
    | slept _ _ =>
        rw [Nat.le_antisymm hpassed (host.clock.le_deadline w.now d)]
        exact htruthful.inevitably_atOnce hpassed
    | cutShort _ _ hlater' _ => exact absurd hlater' hlater

/-- The first look of a select finds that the run is cancelled, or the timer is begun. -/
theorem eq_of_picks_timerSelect {x : Solo S Bool}
    (h : Solo.Picks host (Solo.start w (timerSelect d branch)) x) :
    w.cancelled = true ∧ x = ⟨w, .active (.done w.cancelled)⟩ ∨
      x = ⟨w, .active (.race (.timer d) branch)⟩ := by
  cases h with
  | passOver => exact .inr rfl
  | inOrder h =>
      have hs : (Solo.start w (timerSelect d branch)).step host =
          some ⟨w, .active (if w.cancelled = true then pure true
            else .race (.timer d) branch)⟩ := Solo.step_of_advance rfl
      cases h.symm.trans hs
      cases hw : w.cancelled with
      | true => exact .inl ⟨rfl, rfl⟩
      | false => exact .inr rfl

/-- However its select looks at the branches, a sleep ends as it should. -/
theorem Truthful.inevitably_sleptTo (htruthful : Truthful branch) {token : Bool}
    (h : Rests host w d token w') :
    Inevitably (Solo.Picks host) (Solo.SleptTo w') (Solo.start w (timerSelect d branch)) := by
  refine .later ⟨_, .passOver⟩ fun z hz => ?_
  rcases eq_of_picks_timerSelect hz with ⟨hw, rfl⟩ | rfl
  · rw [h.eq_of_cancelled hw]
    exact .now ⟨w.tickets, rfl⟩
  · cases hw : w.cancelled with
    | true =>
        -- The select has begun the timer, but the run is cancelled: it comes back to that.
        rw [h.eq_of_cancelled hw]
        exact htruthful.inevitably_passedOver hw
    | false => exact htruthful.inevitably_active h hw

end

/-! ## Races -/

/-- Work that races against cancellation is not begun in a run that is cancelled. Otherwise it has
its result if it comes to it in time, even if it cancels the run on the last stretch. It has none if
it waits in a run that it has cancelled, or is not over when the run is cancelled from outside, and
then nothing more of it is done. A sleep ends by itself or by the cancellation, whichever comes
first, and tells whether the run is cancelled then, in whichever order its select looks at its
branches. -/
theorem cancellation_decides_races (host : Host S) (w : World S) (p : Routine S α) (d : Duration) :
    let race := untilCancelled p
    let due := host.clock.deadline w.now d
    (w.cancelled = true →
      ∀ n, Solo.run host (n + 1) (Solo.start w race) = Solo.start w (.done none)) ∧
    (w.cancelled = false →
      (∀ a w', race.ComesTo host w (some a) w' ↔
        p.Resolves host w a w' ∧ InTime host w.now w'.now) ∧
      (∀ w', race.ComesTo host w none w' ↔
        p.CancelsItself host w w' ∧ InTime host w.now w'.now ∨
          ∃ c, host.cancelAt = some c ∧ p.CutShortAt host w c w') ∧
      ∀ c, host.cancelAt = some c → p.Outlasts host w c →
        ∃ w', p.CutShortAt host w c w' ∧ w'.now = max w.now c ∧
          ∃ n, ∀ m, n ≤ m → Solo.run host m (Solo.start w race) = Solo.start w' (.done none)) ∧
    ∃ w', (sleepOrCancelled d : Routine S Bool).ComesTo host w w'.cancelled w' ∧
      (w.cancelled = true → w' = w) ∧
      (w.cancelled = false → w'.now = host.cutAt w.now due ∧
        (w'.cancelled = true ↔ w.now < due ∧ ∃ c, host.cancelAt = some c ∧ c ≤ due) ∧
        w'.counters = w.counters ∧ w'.past = w.past ∧ w'.journal = w.journal ∧
        w'.supply = w.supply) ∧
      Inevitably (Solo.Picks host) (Solo.SleptTo w') (Solo.start w (timerSelect d sleepBranch)) ∧
      Inevitably (Solo.Picks host) (Solo.SleptTo w') (Solo.start w (sleepOrCancelled d)) := by
  intro race due
  refine ⟨run_untilCancelled_of_cancelled, fun hw => ⟨fun a w' => ?_, fun w' => ?_, ?_⟩, ?_⟩
  · rw [comesTo_untilCancelled_iff hw]
    exact decided_some_iff
  · rw [comesTo_untilCancelled_iff hw]
    exact decided_none_iff
  · intro c hc houtlasts
    rcases exists_cutShortAt houtlasts hc with ⟨w', hcut⟩
    rcases hcut.comesTo hw hc with ⟨n, hn⟩
    exact ⟨w', hcut, hcut.now_eq, n, fun m => run_of_comesTo hn⟩
  · rcases exists_rests host w d with ⟨token, w', hrests⟩
    have hcomes : (sleepOrCancelled d : Routine S Bool).ComesTo host w w'.cancelled w' := by
      rw [hrests.cancelled_eq]
      exact comesTo_sleep.2 hrests
    have hany := truthful_isCancelled.inevitably_sleptTo hrests
    rw [← sleepOrCancelled_eq] at hany
    refine ⟨w', hcomes, hrests.eq_of_cancelled, fun hw => ?_,
      truthful_sleepBranch.inevitably_sleptTo hrests, hany⟩
    have hcancelled := hrests.cancelled_iff
    rw [hw] at hcancelled
    refine ⟨hrests.now_eq_cutAt hw, ?_, hrests.undisturbed⟩
    simpa using hcancelled

/-- Work that cancels the run and returns without a further wait has its result, and work that waits
too long has none. Both have none, and are not begun, in a run that is cancelled. A timer that runs
out at the cancellation tells of it. -/
theorem cancellation_decides_races_both_ways :
    let S : Signature := ⟨Unit, Unit, Unit⟩
    let host : Host S := { transport := fun _ _ => ⟨(), none, false⟩, cancelAt := some 5000000000 }
    let quits : Routine S Nat := do
      sleep (.ofSecs 2)
      act .cancel
      return 7
    let tarries : Routine S Nat := do
      sleep (.ofSecs 9)
      return 7
    (∃ w', (untilCancelled quits).ComesTo host {} (some 7) w' ∧ w'.now = 2000000000) ∧
      (∃ w', (untilCancelled tarries).ComesTo host {} none w' ∧ w'.now = 5000000000) ∧
      Solo.run host 1 (Solo.start { cancelled := true } (untilCancelled quits)) =
        Solo.start { cancelled := true } (.done none) ∧
      ∃ w', (sleepOrCancelled (.ofSecs 5) : Routine S Bool).ComesTo host {} true w' ∧
        w'.now = 5000000000 ∧
        Inevitably (Solo.Picks host) (Solo.SleptTo w')
          (Solo.start {} (timerSelect (.ofSecs 5) sleepBranch)) := by
  intro S host quits tarries
  rcases cancellation_decides_races host {} quits (.ofSecs 5) with
    ⟨-, hquits, w', hsleep, -, hrest, hany, -⟩
  rcases cancellation_decides_races host {} tarries (.ofSecs 5) with ⟨-, htarries, -⟩
  rcases cancellation_decides_races host { cancelled := true } quits (.ofSecs 5) with
    ⟨hunbegun, -⟩
  refine ⟨?_, ?_, hunbegun rfl 0, w', ?_⟩
  · have hresolves : quits.Resolves host {} 7 (Solo.run host.calm 4 (Solo.start {} quits)).world :=
      exists_resolves_of_result (by decide +kernel) (by decide +kernel)
    have hnow : (Solo.run host.calm 4 (Solo.start {} quits)).world.now = 2000000000 := by
      decide +kernel
    refine ⟨_, ((hquits rfl).1 7 _).2 ⟨hresolves, ?_⟩, hnow⟩
    rw [hnow]
    rintro - c ⟨⟩
    decide
  · have houtlasts : tarries.Outlasts host {} 5000000000 :=
      .inl ⟨Solo.run host.calm 2 (Solo.start {} tarries), .of_run (by decide +kernel),
        by decide +kernel, by decide +kernel⟩
    rcases (htarries rfl).2.2 _ rfl houtlasts with ⟨w', -, hnow, n, hn⟩
    exact ⟨w', ⟨n, hn n (Nat.le_refl n)⟩, hnow⟩
  · rcases hrest rfl with ⟨hnow, hcancelled, -⟩
    have htrue : w'.cancelled = true := hcancelled.2 ⟨by decide +kernel, _, rfl, by decide +kernel⟩
    rw [htrue] at hsleep
    refine ⟨hsleep, hnow.trans ?_, hany⟩
    decide +kernel

end Routine
end TxWorkload
