import TxWorkload.Proofs.Routine.Laps

/-!
# Fate — work that races against cancellation, told by the work itself

What becomes of work under `untilCancelled` is decided by what the work does by itself, and by the
moment at which the run is cancelled. Guarded work goes step by step with the work by itself, up to
the first state in which the work waits and the run is cancelled: there the race is lost. So the
work has its result in the same world if it comes to it before that, even if it cancels the run on
the last stretch. Otherwise there is no result, and the world is left as the work left it when it
began to wait.
-/

namespace TxWorkload
namespace Routine

variable {S : Signature} {α β : Type} {host : Host S} {w w' : World S}

/-! ## Work by itself -/

/-- The same surroundings, but nobody cancels the run from outside. -/
def Host.calm (host : Host S) : Host S :=
  { host with cancelAt := none }

namespace Solo

/-- Whether the work waits in a run that is cancelled. -/
def Lost (x : Solo S α) : Prop :=
  x.strand.isWaiting = true ∧ x.world.cancelled = true

instance (x : Solo S α) : Decidable x.Lost :=
  inferInstanceAs (Decidable (_ ∧ _))

/-- Whether the work by itself gets from one state to another, and does not wait in a cancelled run
on the way. -/
inductive InRace (host : Host S) : Solo S α → Solo S α → Prop
  | here (x : Solo S α) : InRace host x x
  | more {x y z : Solo S α} (hx : ¬ x.Lost) (hs : x.step host.calm = some y)
      (h : InRace host y z) : InRace host x z

/-- When the wait of the work ends: never, or at one moment. -/
def dues (x : Solo S α) : List Nat :=
  (x.strand.due?.map Prod.fst).toList

/-- Whether the work waits when a moment comes, for what is due then at the earliest. -/
structure Meets (x : Solo S α) (moment : Nat) : Prop where
  waits : x.strand.isWaiting = true
  active : x.world.cancelled = false
  dues : ∀ due ∈ x.dues, x.world.now < due ∧ moment ≤ due

end Solo

open Solo (InRace)

/-- Whether what ends at a moment takes no time, or ends before the run is cancelled from
outside. -/
def InTime (host : Host S) (start moment : Nat) : Prop :=
  start < moment → ∀ c, host.cancelAt = some c → moment < c

/-- Whether the work by itself comes to a result, and does not wait in a cancelled run before. -/
def Resolves (host : Host S) (p : Routine S α) (w : World S) (a : α) (w' : World S) : Prop :=
  InRace host (Solo.start w p) ⟨w', .active (.done a)⟩

/-- Whether the work by itself cancels the run and then has to wait. -/
def CancelsItself (host : Host S) (p : Routine S α) (w w' : World S) : Prop :=
  ∃ s, InRace host (Solo.start w p) ⟨w', s⟩ ∧ (Solo.mk w' s).Lost

/-- Whether the work waits when the run is cancelled from outside, and the world at that moment. -/
def CutShortAt (host : Host S) (p : Routine S α) (w : World S) (c : Nat) (w' : World S) : Prop :=
  ∃ x, InRace host (Solo.start w p) x ∧ InTime host w.now x.world.now ∧ x.Meets c ∧
    w' = { x.world with now := max w.now c, cancelled := true }

/-- Whether the work by itself always gets on to a wait or to a result without time passing. -/
def GivesWay (host : Host S) (p : Routine S α) (w : World S) : Prop :=
  ∀ x, InRace host (Solo.start w p) x → ∃ y, InRace host x y ∧ y.world.now = x.world.now ∧
    ((∃ a, y.strand.result? = some a) ∨
      y.strand.isWaiting = true ∧ ∀ due ∈ y.dues, y.world.now < due)

/-- Whether the work by itself is not over before a moment: it gets there or farther, or it is never
over. -/
def Outlasts (host : Host S) (p : Routine S α) (w : World S) (moment : Nat) : Prop :=
  (∃ x, InRace host (Solo.start w p) x ∧ w.now < x.world.now ∧ moment ≤ x.world.now) ∨
    (p.GivesWay host w ∧ (∀ a w', ¬ p.Resolves host w a w') ∧ ∀ w', ¬ p.CancelsItself host w w')

/-! ## Time limits -/

theorem InTime.refl (moment : Nat) : InTime host moment moment :=
  fun h => absurd h (Nat.lt_irrefl _)

theorem InTime.trans {start middle moment : Nat} (h : InTime host start middle)
    (h' : InTime host middle moment) : InTime host start moment := by
  intro hlt c hc
  by_cases hpassed : middle < moment
  · exact h' hpassed c hc
  · have hle := Nat.le_of_not_lt hpassed
    exact Nat.lt_of_le_of_lt hle (h (Nat.lt_of_lt_of_le hlt hle) c hc)

/-- What begins later and ends earlier is in time as well. -/
theorem InTime.mono {start start' moment moment' : Nat} (h : InTime host start moment)
    (hstart : start ≤ start') (hmoment : moment' ≤ moment) : InTime host start' moment' :=
  fun hlt c hc => Nat.lt_of_le_of_lt hmoment
    (h (Nat.lt_of_le_of_lt hstart (Nat.lt_of_lt_of_le hlt hmoment)) c hc)

/-- Whoever is in time meets the cancellation when it comes, but not before the start. -/
theorem InTime.max_eq {start moment c : Nat} (h : InTime host start moment)
    (hle : start ≤ moment) (hc : host.cancelAt = some c) : max moment c = max start c := by
  rcases Nat.eq_or_lt_of_le hle with rfl | hlt
  · rfl
  · have hbefore := h hlt c hc
    omega

/-! ## Held up by a wait -/

/-- Only the passing of time depends on when the run is cancelled from outside. -/
theorem Strand.advance_calm (s : Strand S α) (token : Bool) (w : World S) :
    s.advance host.calm token w = s.advance host token w := by
  have hperform : ∀ {β : Type} (e : Effect S β),
      w.perform host.calm token e = w.perform host token e := by
    intro β e
    cases e <;> rfl
  have hbegin : ∀ {β : Type} (what : Wait S β), w.begin host.calm what = w.begin host what := by
    intro β what
    cases what <;> rfl
  cases s with
  | active p => cases p <;> simp only [advance, hperform, hbegin]
  | _ => rfl

namespace Solo

variable {x y z : Solo S α}

/-- Whether the work is held up by a wait in a run that is not cancelled. -/
structure Held (host : Host S) (x : Solo S α) : Prop where
  stays : x.strand.advance host x.world.cancelled x.world = none
  waits : x.strand.isWaiting = true
  active : x.world.cancelled = false

theorem step_of_advance {s : Strand S α}
    (h : x.strand.advance host x.world.cancelled x.world = some (w', s)) :
    x.step host = some ⟨w', s⟩ := by
  simp only [step, h]

theorem step_of_isOver (h : x.strand.advance host x.world.cancelled x.world = none)
    (hover : x.strand.isOver = true) : x.step host = none := by
  simp only [step, h, hover, if_true]

theorem isOver_of_isWaiting (h : x.strand.isWaiting = true) : x.strand.isOver = false := by
  rcases x with ⟨w, s⟩
  cases s with
  | blocked pending next => rfl
  | contested pending next => rfl
  | active p => cases h
  | starved => cases h
  | aborted cause => cases h

theorem isWaiting_of_advance_eq_none
    (h : x.strand.advance host x.world.cancelled x.world = none) (hover : x.strand.isOver = false) :
    x.strand.isWaiting = true := by
  rcases x with ⟨w, s⟩
  cases s with
  | active p =>
      cases p with
      | done a => cases hover
      | perform e next =>
          simp only [Strand.advance] at h
          split at h <;> cases h
      | wait what next =>
          simp only [Strand.advance] at h
          split at h <;> cases h
      | race what next =>
          simp only [Strand.advance] at h
          split at h <;> cases h
      | loop s body next => cases h
  | blocked pending next => rfl
  | contested pending next => rfl
  | starved => cases hover
  | aborted cause => cases hover

/-- What cannot go on is over or held up, unless the race is lost. -/
theorem isOver_or_held (hx : ¬ x.Lost)
    (h : x.strand.advance host x.world.cancelled x.world = none) :
    x.strand.isOver = true ∨ x.Held host := by
  cases hover : x.strand.isOver with
  | true => exact .inl rfl
  | false =>
      have hwaits := isWaiting_of_advance_eq_none h hover
      exact .inr ⟨h, hwaits, Bool.eq_false_iff.2 fun hcancelled => hx ⟨hwaits, hcancelled⟩⟩

/-- The work waits for one thing at a time. -/
theorem dues_eq (x : Solo S α) : x.dues = [] ∨ ∃ due, x.dues = [due] := by
  unfold dues
  cases x.strand.due? with
  | none => exact .inl rfl
  | some due => exact .inr ⟨due.1, rfl⟩

/-- What waits for something later is held up. -/
theorem Meets.held {moment : Nat} (h : x.Meets moment) : x.Held host := by
  rcases x with ⟨w, s⟩
  have hactive : w.cancelled = false := h.active
  refine ⟨?_, h.waits, hactive⟩
  have hlate : ∀ {γ : Type} (pending : World.Pending γ),
      (pending.due.map fun due => (due, pending.ticket)) = s.due? → w.hasEnded pending = false := by
    intro γ pending hdue
    have hdues : ∀ due ∈ (s.due?.map Prod.fst).toList, w.now < due ∧ moment ≤ due := h.dues
    rw [← hdue] at hdues
    unfold World.hasEnded
    cases hpending : pending.due with
    | none => rfl
    | some due =>
        rw [hpending] at hdues
        exact decide_eq_false (Nat.not_le.2 (hdues due (List.mem_singleton_self due)).1)
  change s.advance host w.cancelled w = none
  rw [hactive]
  cases s with
  | blocked pending next => simp [Strand.advance, hlate pending rfl]
  | contested pending next => simp [Strand.advance, hlate pending rfl]
  | active p => cases h.waits
  | starved => rfl
  | aborted cause => rfl

namespace Held

theorem calm (h : x.Held host) : x.Held host.calm where
  stays := by rw [Strand.advance_calm, h.stays]
  waits := h.waits
  active := h.active

theorem not_lost (h : x.Held host) : ¬ x.Lost :=
  fun hlost => Bool.false_ne_true (h.active.symm.trans hlost.2)

theorem lt_of_dues_eq (h : x.Held host) {due : Nat} (hdues : x.dues = [due]) :
    x.world.now < due :=
  Strand.lt_due_of_advance h.stays (hdues ▸ List.mem_singleton_self due : due ∈ x.dues)

theorem step_eq (h : x.Held host) :
    x.step host = (x.world.nextMoment host x.dues).map fun moment =>
      { x with world := x.world.passTo host moment } := by
  simp only [step, h.stays, isOver_of_isWaiting h.waits]
  rfl

/-- A wait that ends before the run is cancelled lets time pass to its end. -/
theorem step_pass (h : x.Held host) {due : Nat} (hdues : x.dues = [due])
    (hcancel : ∀ c, host.cancelAt = some c → due < c) :
    x.step host = some { x with world := { x.world with now := due } } := by
  rw [h.step_eq, hdues]
  cases hc : host.cancelAt with
  | none => simp [World.nextMoment, World.passTo, hc]
  | some c =>
      have hlt := hcancel c hc
      have hmin : x.world.nextMoment host [due] = some due := by
        simp only [World.nextMoment, h.active, hc, Bool.false_eq_true, if_false, Option.map_some,
          Option.toList_some, List.cons_append, List.nil_append]
        have hle : due ≤ max x.world.now c :=
          Nat.le_trans (Nat.le_of_lt hlt) (Nat.le_max_right _ _)
        exact congrArg some (Nat.min_eq_left hle)
      have hnot : decide (c ≤ due) = false := decide_eq_false (Nat.not_le.2 hlt)
      simp only [hmin, Option.map_some, World.passTo, hc, hnot, Bool.or_false]

/-- What waits for ever in a run that is never cancelled does not get on. -/
theorem step_stall (h : x.Held host) (hdues : x.dues = []) (hc : host.cancelAt = none) :
    x.step host = none := by
  rw [h.step_eq, hdues]
  simp [World.nextMoment, hc]

/-- Work that is held up is met by the cancellation, or its wait ends before, or it waits for
ever. -/
theorem meets_or_passes (h : x.Held host) :
    (∃ c, host.cancelAt = some c ∧ x.Meets c) ∨
      (∃ due, x.dues = [due] ∧ ∀ c, host.cancelAt = some c → due < c) ∨
        x.dues = [] ∧ host.cancelAt = none := by
  rcases x.dues_eq with hdues | ⟨due, hdues⟩
  · cases hc : host.cancelAt with
    | none => exact .inr (.inr ⟨hdues, rfl⟩)
    | some c =>
        refine .inl ⟨c, rfl, h.waits, h.active, fun due hdue => ?_⟩
        rw [hdues] at hdue
        cases hdue
  · by_cases hcancel : ∀ c, host.cancelAt = some c → due < c
    · exact .inr (.inl ⟨due, hdues, hcancel⟩)
    · push Not at hcancel
      rcases hcancel with ⟨c, hc, hle⟩
      refine .inl ⟨c, hc, h.waits, h.active, fun due' hdue' => ?_⟩
      rw [hdues] at hdue'
      cases List.mem_singleton.1 hdue'
      exact ⟨h.lt_of_dues_eq hdues, hle⟩

end Held

/-- A wait that does not end before lets time pass to the cancellation. -/
theorem Meets.step_cut {c : Nat} (h : x.Meets c) (hc : host.cancelAt = some c) :
    x.step host =
      some { x with world := { x.world with now := max x.world.now c, cancelled := true } } := by
  have hmin : x.world.nextMoment host x.dues = some (max x.world.now c) := by
    simp only [World.nextMoment, h.active, hc, Bool.false_eq_true, if_false, Option.map_some,
      Option.toList_some]
    rcases x.dues_eq with hdues | ⟨due, hdues⟩
    · rw [hdues]
      rfl
    · have hdue := h.dues due (hdues ▸ List.mem_singleton_self due)
      rw [hdues]
      exact congrArg some (Nat.min_eq_right (Nat.max_le.2 ⟨Nat.le_of_lt hdue.1, hdue.2⟩))
  have hreached : decide (c ≤ max x.world.now c) = true := decide_eq_true (Nat.le_max_right _ _)
  rw [h.held.step_eq, hmin]
  simp only [Option.map_some, World.passTo, hc, hreached, Bool.or_true]

/-- A step of the work by itself: it goes on at once, or its wait comes to the end. -/
theorem step_calm (hx : ¬ x.Lost) (hs : x.step host.calm = some y) :
    x.strand.advance host x.world.cancelled x.world = some (y.world, y.strand) ∨
      x.Held host ∧
        ∃ due, x.dues = [due] ∧ y = { x with world := { x.world with now := due } } := by
  cases hadvance : x.strand.advance host x.world.cancelled x.world with
  | some next =>
      have hcalm : x.step host.calm = some ⟨next.1, next.2⟩ :=
        step_of_advance (by rw [Strand.advance_calm, hadvance])
      cases hcalm.symm.trans hs
      exact .inl rfl
  | none =>
      rcases isOver_or_held hx hadvance with hover | hheld
      · cases (step_of_isOver ((Strand.advance_calm _ _ _).trans hadvance) hover).symm.trans hs
      · rcases x.dues_eq with hdues | ⟨due, hdues⟩
        · cases (hheld.calm.step_stall hdues rfl).symm.trans hs
        · cases (hheld.calm.step_pass hdues nofun).symm.trans hs
          exact .inr ⟨hheld, due, hdues, rfl⟩

end Solo

/-! ## Guarded work -/

/-- The strand of guarded work, at the same point as the work by itself. -/
def Strand.guarded : Strand S α → Strand S (Option α)
  | .active p => .active p.guarded
  | .blocked pending next => .contested pending fun b =>
      match b with
      | none => .done none
      | some b => (next b).guarded
  | .contested pending next => .contested pending fun b =>
      match b with
      | none => .done none
      | some b => (next (some b)).guarded
  | .starved => .starved
  | .aborted cause => .aborted cause

/-- Guarded work, at the same point as the work by itself. -/
def Solo.guarded (x : Solo S α) : Solo S (Option α) :=
  ⟨x.world, x.strand.guarded⟩

/-- Guarded work takes the same steps as the work by itself, as long as the race is not lost. -/
theorem Strand.advance_guarded (s : Strand S α) {token : Bool} {w : World S}
    (h : s.isWaiting = true → token = false) :
    s.guarded.advance host token w =
      (s.advance host token w).map fun y => (y.1, y.2.guarded) := by
  cases s with
  | active p =>
      cases p with
      | done a => rfl
      | perform e next =>
          simp only [guarded, Routine.guarded, advance]
          cases w.perform host token e <;> rfl
      | wait what next =>
          simp only [guarded, Routine.guarded, advance]
          split <;> rfl
      | race what next =>
          simp only [guarded, Routine.guarded, advance]
          split <;> rfl
      | loop s body next =>
          simp only [guarded, Routine.guarded, advance, Option.map_some]
          -- A turn of the guarded loop is a turn of the loop, and what follows is guarded as well.
          refine congrArg (fun p => some (w, active p)) ?_
          rw [guarded_andThen, andThen_andThen]
          congr 1
          funext turn
          rcases turn with _ | s | b
          · rfl
          · simp only [guardedTurn, andThen, Option.elim, Routine.guarded]
          · rfl
  | blocked pending next =>
      rw [h rfl]
      simp only [guarded, advance, Bool.false_eq_true, if_false]
      split <;> rfl
  | contested pending next =>
      rw [h rfl]
      simp only [guarded, advance, Bool.false_eq_true, if_false]
      split <;> rfl
  | starved => rfl
  | aborted cause => rfl

namespace Solo

variable {x y z : Solo S α}

theorem isOver_guarded (s : Strand S α) : s.guarded.isOver = s.isOver := by
  cases s with
  | active p => cases p <;> simp [Strand.guarded, Routine.guarded, Strand.isOver]
  | _ => rfl

theorem isWaiting_guarded (s : Strand S α) : s.guarded.isWaiting = s.isWaiting := by
  cases s <;> rfl

theorem dues_guarded (x : Solo S α) : x.guarded.dues = x.dues := by
  rcases x with ⟨w, s⟩
  cases s <;> rfl

theorem advance_guarded (hx : ¬ x.Lost) :
    x.guarded.strand.advance host x.guarded.world.cancelled x.guarded.world =
      (x.strand.advance host x.world.cancelled x.world).map fun y => (y.1, y.2.guarded) :=
  Strand.advance_guarded x.strand fun hwaits =>
    Bool.eq_false_iff.2 fun hcancelled => hx ⟨hwaits, hcancelled⟩

theorem Held.guarded (h : x.Held host) : x.guarded.Held host where
  stays := by
    rw [advance_guarded h.not_lost, h.stays]
    rfl
  waits := (isWaiting_guarded x.strand).trans h.waits
  active := h.active

theorem Meets.guarded {c : Nat} (h : x.Meets c) : x.guarded.Meets c where
  waits := (isWaiting_guarded x.strand).trans h.waits
  active := h.active
  dues := by
    rw [dues_guarded]
    exact h.dues

/-- Guarded work has a result only if the work by itself has it, which is then the same. -/
theorem eq_done_of_guarded {answer : Option α} (h : x.guarded = ⟨w', .active (.done answer)⟩) :
    ∃ a, answer = some a ∧ x = ⟨w', .active (.done a)⟩ := by
  rcases x with ⟨w, s⟩
  cases s with
  | active p =>
      cases p with
      | done a =>
          cases h
          exact ⟨a, rfl, rfl⟩
      | perform e next => simp [Solo.guarded, Strand.guarded, Routine.guarded] at h
      | wait what next => simp [Solo.guarded, Strand.guarded, Routine.guarded] at h
      | race what next => simp [Solo.guarded, Strand.guarded, Routine.guarded] at h
      | loop s body next => simp [Solo.guarded, Strand.guarded, Routine.guarded] at h
  | blocked pending next => cases h
  | contested pending next => cases h
  | starved => cases h
  | aborted cause => cases h

/-- Where the race is lost, guarded work gives up. -/
theorem Lost.step_guarded (hx : x.Lost) :
    x.guarded.step host = some ⟨x.world, .active (.done none)⟩ := by
  rcases x with ⟨w, s⟩
  have hcancelled : w.cancelled = true := hx.2
  refine step_of_advance ?_
  change s.guarded.advance host w.cancelled w = _
  rw [hcancelled]
  cases s with
  | blocked pending next => rfl
  | contested pending next => rfl
  | active p => cases hx.1
  | starved => cases hx.1
  | aborted cause => cases hx.1

/-- Two steps give up guarded work that waits when the run is cancelled. -/
theorem Meets.run_guarded {c : Nat} (h : x.Meets c) (hc : host.cancelAt = some c) :
    run host 2 x.guarded =
      ⟨{ x.world with now := max x.world.now c, cancelled := true }, .active (.done none)⟩ := by
  let y : Solo S α := ⟨{ x.world with now := max x.world.now c, cancelled := true }, x.strand⟩
  have hcut : x.guarded.step host = some y.guarded := h.guarded.step_cut hc
  have hlost : y.Lost := ⟨h.waits, rfl⟩
  simp only [run, hcut, hlost.step_guarded]
  rfl

/-- Guarded work gets on as the work by itself does, if that is in time. -/
theorem step_guarded (hx : ¬ x.Lost) (hs : x.step host.calm = some y)
    (htime : InTime host x.world.now y.world.now) : x.guarded.step host = some y.guarded := by
  rcases step_calm hx hs with hadvance | ⟨hheld, due, hdues, rfl⟩
  · refine step_of_advance ?_
    rw [advance_guarded hx, hadvance]
    rfl
  · exact hheld.guarded.step_pass ((dues_guarded x).trans hdues) (htime (hheld.lt_of_dues_eq hdues))

/-- What guarded work comes to next: it gets on as the work by itself does, or it is met by the
cancellation, or it stays where it is. -/
theorem step_guarded_cases (host : Host S) (hx : ¬ x.Lost) :
    (∃ y, x.step host.calm = some y ∧ InTime host x.world.now y.world.now) ∨
      (∃ c, host.cancelAt = some c ∧ x.Meets c) ∨ x.guarded.step host = none := by
  cases hadvance : x.strand.advance host x.world.cancelled x.world with
  | some next =>
      have hnow : next.1.now = x.world.now := (Strand.elapses_of_advance 0 hadvance).2
      refine .inl ⟨⟨next.1, next.2⟩, step_of_advance ?_, ?_⟩
      · rw [Strand.advance_calm, hadvance]
      · rw [hnow]
        exact .refl _
  | none =>
      rcases isOver_or_held hx hadvance with hover | hheld
      · refine .inr (.inr (step_of_isOver ?_ ((isOver_guarded _).trans hover)))
        rw [advance_guarded hx, hadvance]
        rfl
      · rcases hheld.meets_or_passes with hmeets | ⟨due, hdues, hcancel⟩ | ⟨hdues, hc⟩
        · exact .inr (.inl hmeets)
        · exact .inl ⟨_, hheld.calm.step_pass hdues nofun, fun _ => hcancel⟩
        · exact .inr (.inr (hheld.guarded.step_stall ((dues_guarded x).trans hdues) hc))

theorem run_done {a : α} (n : Nat) :
    run host n (⟨w, .active (.done a)⟩ : Solo S α) = ⟨w, .active (.done a)⟩ :=
  run_of_step_eq_none step_done n

/-! ## The course of a race -/

namespace InRace

theorem trans (h : InRace host x y) (h' : InRace host y z) : InRace host x z := by
  induction h with
  | here _ => exact h'
  | more hx hs _ ih => exact .more hx hs (ih h')

theorem snoc (h : InRace host x y) (hy : ¬ y.Lost) (hs : y.step host.calm = some z) :
    InRace host x z :=
  h.trans (.more hy hs (.here z))

theorem now_le (h : InRace host x z) : x.world.now ≤ z.world.now := by
  induction h with
  | here _ => exact Nat.le_refl _
  | more _ hs _ ih => exact Nat.le_trans (now_le_of_step hs) ih

/-- Work is in the race for as many steps as it does not lose it. -/
theorem of_run {n : Nat} (h : ∀ k < n, ¬ (run host.calm k x).Lost) :
    InRace host x (run host.calm n x) := by
  induction n generalizing x with
  | zero => exact .here x
  | succ n ih =>
      rw [run]
      cases hs : x.step host.calm with
      | none => exact .here x
      | some y =>
          refine .more (h 0 (Nat.succ_pos n)) hs (ih fun k hk => ?_)
          have hlater := h (k + 1) (Nat.succ_lt_succ hk)
          rwa [run, hs] at hlater

/-- Guarded work gets where the work by itself gets in time. -/
theorem exists_run (h : InRace host x z) (htime : InTime host x.world.now z.world.now) :
    ∃ n, run host n x.guarded = z.guarded := by
  induction h with
  | here x => exact ⟨0, rfl⟩
  | more hx hs h ih =>
      rcases ih (htime.mono (now_le_of_step hs) (Nat.le_refl _)) with ⟨n, hn⟩
      refine ⟨n + 1, ?_⟩
      rw [run, step_guarded hx hs (htime.mono (Nat.le_refl _) h.now_le)]
      exact hn

/-- Work that gets as far as the cancellation by itself waits when it comes. -/
theorem exists_meets {start c : Nat} (h : InRace host x z) (hc : host.cancelAt = some c)
    (htime : InTime host start x.world.now) (hlt : start < z.world.now) (hz : c ≤ z.world.now) :
    ∃ y, InRace host x y ∧ InTime host start y.world.now ∧ y.Meets c := by
  induction h with
  | here x => exact absurd (htime hlt c hc) (Nat.not_lt.2 hz)
  | @more x y z hx hs h ih =>
      by_cases hnext : InTime host start y.world.now
      · rcases ih hnext hlt hz with ⟨y', hy', hmeets⟩
        exact ⟨y', .more hx hs hy', hmeets⟩
      · -- This is the step that passes over the cancellation, so the work waits there.
        refine ⟨x, .here x, htime, ?_⟩
        rcases step_calm hx hs with hadvance | ⟨hheld, due, hdues, rfl⟩
        · have hnow : y.world.now = x.world.now := (Strand.elapses_of_advance 0 hadvance).2
          exact absurd (hnow ▸ htime) hnext
        · refine ⟨hheld.waits, hheld.active, fun due' hdue => ?_⟩
          rw [hdues] at hdue
          cases List.mem_singleton.1 hdue
          refine ⟨hheld.lt_of_dues_eq hdues, Nat.le_of_not_lt fun hbefore => hnext ?_⟩
          intro _ c' hc'
          cases hc.symm.trans hc'
          exact hbefore

end InRace
end Solo

section

variable {p : Routine S α}

/-- A race looks first whether it is lost already. -/
theorem step_untilCancelled :
    (Solo.start w (untilCancelled p)).step host =
      some ⟨w, .active (if w.cancelled = true then pure none else p.guarded)⟩ :=
  Solo.step_of_advance rfl

/-- Guarded work that is not given up before it begins goes the same way one step later. -/
theorem run_untilCancelled (hw : w.cancelled = false) (n : Nat) :
    Solo.run host (n + 1) (Solo.start w (untilCancelled p)) =
      Solo.run host n (Solo.start w p).guarded := by
  rw [Solo.run, step_untilCancelled, hw]
  rfl

theorem comesTo_of_run_guarded {answer : Option α} {n : Nat} (hw : w.cancelled = false)
    (hn : Solo.run host n (Solo.start w p).guarded = ⟨w', .active (.done answer)⟩) :
    (untilCancelled p).ComesTo host w answer w' :=
  ⟨n + 1, (run_untilCancelled hw n).trans hn⟩

/-- Work that is cancelled before it begins is not begun. -/
theorem run_untilCancelled_of_cancelled (hw : w.cancelled = true) (n : Nat) :
    Solo.run host (n + 1) (Solo.start w (untilCancelled p)) = Solo.start w (.done none) := by
  rw [Solo.run, step_untilCancelled, hw]
  exact Solo.run_done n

/-- Work that comes to its result in time has it. -/
theorem Resolves.comesTo {a : α} (h : p.Resolves host w a w') (hw : w.cancelled = false)
    (htime : InTime host w.now w'.now) : (untilCancelled p).ComesTo host w (some a) w' := by
  rcases InRace.exists_run h htime with ⟨n, hn⟩
  exact comesTo_of_run_guarded hw hn

theorem exists_resolves_of_result {a : α} {n : Nat}
    (h : ∀ k < n, ¬ (Solo.run host.calm k (Solo.start w p)).Lost)
    (hresult : (Solo.run host.calm n (Solo.start w p)).strand.result? = some a) :
    p.Resolves host w a (Solo.run host.calm n (Solo.start w p)).world := by
  have hrace := InRace.of_run h
  rwa [Solo.eq_of_result hresult] at hrace

/-- Work that cancels the run itself and then waits is given up there. -/
theorem CancelsItself.comesTo (h : p.CancelsItself host w w') (hw : w.cancelled = false)
    (htime : InTime host w.now w'.now) : (untilCancelled p).ComesTo host w none w' := by
  rcases h with ⟨s, hrace, hlost⟩
  rcases hrace.exists_run htime with ⟨n, hn⟩
  refine comesTo_of_run_guarded (n := n + 1) hw ?_
  rw [Solo.run_add, hn, Solo.run, hlost.step_guarded]
  rfl

/-- Work that waits when the run is cancelled from outside is given up then. -/
theorem CutShortAt.comesTo {c : Nat} (h : p.CutShortAt host w c w') (hw : w.cancelled = false)
    (hc : host.cancelAt = some c) : (untilCancelled p).ComesTo host w none w' := by
  rcases h with ⟨x, hrace, htime, hmeets, rfl⟩
  rcases hrace.exists_run htime with ⟨n, hn⟩
  refine comesTo_of_run_guarded (n := n + 2) hw ?_
  rw [Solo.run_add, hn, hmeets.run_guarded hc, htime.max_eq hrace.now_le hc]

/-- Work that is cut short ends when the run is cancelled, but not before it begins. -/
theorem CutShortAt.now_eq {c : Nat} (h : p.CutShortAt host w c w') : w'.now = max w.now c := by
  rcases h with ⟨x, -, -, -, rfl⟩
  rfl

/-- What becomes of work that races: it has its result, or it has cancelled the run itself, or the
run was cancelled from outside. -/
inductive Decided (host : Host S) (p : Routine S α) (w : World S) : Option α → World S → Prop
  | resolved {a : α} {w' : World S} (h : p.Resolves host w a w')
      (htime : InTime host w.now w'.now) : Decided host p w (some a) w'
  | cancelsItself {w' : World S} (h : p.CancelsItself host w w')
      (htime : InTime host w.now w'.now) : Decided host p w none w'
  | cutShort {c : Nat} {w' : World S} (hc : host.cancelAt = some c)
      (h : p.CutShortAt host w c w') : Decided host p w none w'

theorem decided_some_iff {a : α} :
    p.Decided host w (some a) w' ↔ p.Resolves host w a w' ∧ InTime host w.now w'.now := by
  constructor
  · rintro (⟨h, htime⟩ | _ | _)
    exact ⟨h, htime⟩
  · rintro ⟨h, htime⟩
    exact .resolved h htime

theorem decided_none_iff :
    p.Decided host w none w' ↔ p.CancelsItself host w w' ∧ InTime host w.now w'.now ∨
      ∃ c, host.cancelAt = some c ∧ p.CutShortAt host w c w' := by
  constructor
  · rintro (_ | ⟨h, htime⟩ | ⟨hc, h⟩)
    · exact .inl ⟨h, htime⟩
    · exact .inr ⟨_, hc, h⟩
  · rintro (⟨h, htime⟩ | ⟨c, hc, h⟩)
    · exact .cancelsItself h htime
    · exact .cutShort hc h

/-- What guarded work comes to is decided by the work by itself, from wherever that gets in time. -/
theorem decided_of_run {x : Solo S α} {answer : Option α} {n : Nat}
    (hrace : InRace host (Solo.start w p) x) (htime : InTime host w.now x.world.now)
    (hn : Solo.run host n x.guarded = ⟨w', .active (.done answer)⟩) :
    p.Decided host w answer w' := by
  -- Each step of the guarded work is one of the work by itself, or the next ones give it up.
  induction n generalizing x with
  | zero =>
      rcases Solo.eq_done_of_guarded hn with ⟨a, rfl, rfl⟩
      exact .resolved hrace htime
  | succ n ih =>
      by_cases hlost : x.Lost
      · rw [Solo.run, hlost.step_guarded] at hn
        cases (Solo.run_done n).symm.trans hn
        exact .cancelsItself ⟨x.strand, hrace, hlost⟩ htime
      · rcases Solo.step_guarded_cases host hlost with
          ⟨y, hs, hnext⟩ | ⟨c, hc, hmeets⟩ | hstays
        · rw [Solo.run, Solo.step_guarded hlost hs hnext] at hn
          exact ih (hrace.snoc hlost hs) (htime.trans hnext) hn
        · have hboth : Solo.run host (2 + (n + 1)) x.guarded = ⟨w', .active (.done answer)⟩ := by
            rw [Nat.add_comm, Solo.run_add, hn, Solo.run_done]
          rw [Solo.run_add, hmeets.run_guarded hc, Solo.run_done] at hboth
          cases hboth
          refine .cutShort hc ⟨x, hrace, htime, hmeets, ?_⟩
          rw [htime.max_eq hrace.now_le hc]
        · rw [Solo.run_of_step_eq_none hstays] at hn
          rcases Solo.eq_done_of_guarded hn with ⟨a, rfl, rfl⟩
          exact .resolved hrace htime

/-- What becomes of work that races is decided by the work by itself and the cancellation. -/
theorem comesTo_untilCancelled_iff {answer : Option α} (hw : w.cancelled = false) :
    (untilCancelled p).ComesTo host w answer w' ↔ p.Decided host w answer w' := by
  constructor
  · rintro ⟨n, hn⟩
    cases n with
    | zero => simp [Solo.run, Solo.start, untilCancelled, checkpoint, act, bind, andThen] at hn
    | succ n =>
        rw [run_untilCancelled hw] at hn
        exact decided_of_run (.here _) (.refl _) hn
  · intro h
    cases h with
    | resolved h htime => exact h.comesTo hw htime
    | cancelsItself h htime => exact h.comesTo hw htime
    | cutShort hc h => exact h.comesTo hw hc

/-- Work that is never over, and always gets on to its next wait, waits when the run is
cancelled. -/
theorem exists_meets_of_givesWay {x : Solo S α} {c : Nat} (hgives : p.GivesWay host w)
    (hresult : ∀ a w', ¬ p.Resolves host w a w') (hself : ∀ w', ¬ p.CancelsItself host w w')
    (hc : host.cancelAt = some c) (hrace : InRace host (Solo.start w p) x)
    (htime : InTime host w.now x.world.now) :
    ∃ y, InRace host (Solo.start w p) y ∧ InTime host w.now y.world.now ∧ y.Meets c := by
  -- Time passes between two waits, so there are not many of them before the cancellation.
  generalize hn : c - x.world.now = n
  induction n using Nat.strongRecOn generalizing x with
  | _ n ih =>
      rcases hgives x hrace with ⟨y, hxy, hnow, ⟨a, hresult'⟩ | ⟨hwaits, hlater⟩⟩
      · have hrace' := hrace.trans hxy
        rw [Solo.eq_of_result hresult'] at hrace'
        exact absurd hrace' (hresult a _)
      · have hactive : y.world.cancelled = false := Bool.eq_false_iff.2 fun hcancelled =>
          hself y.world ⟨y.strand, hrace.trans hxy, hwaits, hcancelled⟩
        have htime' : InTime host w.now y.world.now := by rwa [hnow]
        by_cases hmeets : ∀ due ∈ y.dues, c ≤ due
        · exact ⟨y, hrace.trans hxy, htime', hwaits, hactive, fun due hdue =>
            ⟨hlater due hdue, hmeets due hdue⟩⟩
        · push Not at hmeets
          rcases hmeets with ⟨due, hdue, hbefore⟩
          have hlast : y.Meets 0 :=
            ⟨hwaits, hactive, fun due hdue => ⟨hlater due hdue, Nat.zero_le _⟩⟩
          have hheld : y.Held host := hlast.held
          have hdues : y.dues = [due] := by
            rcases y.dues_eq with hdues | ⟨due', hdues⟩
            · rw [hdues] at hdue
              cases hdue
            · rw [hdues] at hdue ⊢
              rw [List.mem_singleton.1 hdue]
          have hs := hheld.calm.step_pass hdues nofun
          have hpassed := hlater due hdue
          refine ih (c - due) (by omega) ((hrace.trans hxy).snoc hheld.not_lost hs) ?_ rfl
          intro _ c' hc'
          cases hc.symm.trans hc'
          exact hbefore

/-- Work that is not over when the run is cancelled from outside is cut short then. -/
theorem exists_cutShortAt {c : Nat} (h : p.Outlasts host w c) (hc : host.cancelAt = some c) :
    ∃ w', p.CutShortAt host w c w' := by
  have hmeets : ∃ y, InRace host (Solo.start w p) y ∧ InTime host w.now y.world.now ∧
      y.Meets c := by
    rcases h with ⟨x, hrace, hlt, hle⟩ | ⟨hgives, hresult, hself⟩
    · exact hrace.exists_meets hc (.refl _) hlt hle
    · exact exists_meets_of_givesWay hgives hresult hself hc (.here _) (.refl _)
  rcases hmeets with ⟨y, hrace, htime, hmeets⟩
  exact ⟨_, y, hrace, htime, hmeets, rfl⟩

end

end Routine
end TxWorkload
