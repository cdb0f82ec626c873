import TxWorkload.Proofs.Routine.Solo

/-!
# Evaluation — what a routine by itself comes to

A single routine goes on in one way only. Its evaluation is read off the tree: effects follow one
another, a wait is answered when it is due or gives way to a cancellation, and a loop is a chain of
turns. Besides the result and the last world it tells the deeds on the way, which are the waits that
begin and the marks that are made, with their times. A routine evaluates to a result if and only if
its steps lead there.
-/

namespace TxWorkload
namespace Routine

variable {S : Signature} {α β σ : Type}

/-! ## Deeds -/

/-- What a routine does that others can notice. -/
inductive Act (S : Signature)
  | asks (request : S.Request)
  | sleeps (d : Duration)
  | marks (m : S.Mark)

/-- An act, its time, and whether the run was cancelled by then. -/
structure Deed (S : Signature) where
  time : Nat
  cancelled : Bool
  act : Act S

/-- The act of an effect, if it is one. -/
def Effect.act? {β : Type} : Effect S β → Option (Act S)
  | .mark m => some (.marks m)
  | _ => none

/-- The act of beginning a wait. -/
def Wait.act {β : Type} : Wait S β → Act S
  | .reply request => .asks request
  | .timer d => .sleeps d

/-- The act of the next step of a strand, if it is one. -/
def Strand.act? : Strand S α → Option (Act S)
  | .active (.perform e _) => e.act?
  | .active (.wait what _) => some what.act
  | .active (.race what _) => some what.act
  | _ => none

/-- An act that is done in a world, if there is one. -/
def World.deeds (w : World S) (act : Option (Act S)) : List (Deed S) :=
  (act.map fun act => ⟨w.now, w.cancelled, act⟩).toList

/-- The deeds of a number of steps, oldest first. -/
def Solo.trail (host : Host S) : Nat → Solo S α → List (Deed S)
  | 0, _ => []
  | n + 1, x =>
      match x.step host with
      | some y => x.world.deeds x.strand.act? ++ trail host n y
      | none => []

/-! ## Waits -/

/-- The world in which a wait is answered that does not race against cancellation. -/
inductive Awaited (host : Host S) (w : World S) (what : Wait S β) : World S → Prop
  | atOnce {d : Nat} (hdue : (w.begin host what).2.due = some d) (h : d ≤ w.now) :
      Awaited host w what ((w.begin host what).1.deliver (w.begin host what).2)
  | later {d : Nat} (hdue : (w.begin host what).2.due = some d) (h : w.now < d) :
      Awaited host w what (((w.begin host what).1.passTo host d).deliver (w.begin host what).2)

/-- What comes of a wait that races against cancellation, and the world in which it does. -/
inductive Raced (host : Host S) (w : World S) (what : Wait S β) : Option β → World S → Prop
  | atOnce {d : Nat} (hdue : (w.begin host what).2.due = some d) (h : d ≤ w.now) :
      Raced host w what (some (w.begin host what).2.answer)
        ((w.begin host what).1.deliver (w.begin host what).2)
  | inTime {d : Nat} (hw : w.cancelled = false) (hdue : (w.begin host what).2.due = some d)
      (h : w.now < d) (hcancel : ∀ t, host.cancelAt = some t → d < t) :
      Raced host w what (some (w.begin host what).2.answer) (Solo.delivery host w what d)
  | tooLate (hw : w.cancelled = true) (h : ∀ d, (w.begin host what).2.due = some d → w.now < d) :
      Raced host w what none (w.begin host what).1
  | cutOff {t : Nat} (hw : w.cancelled = false) (hcancel : host.cancelAt = some t)
      (h : ∀ d, (w.begin host what).2.due = some d → w.now < d ∧ t ≤ d) :
      Raced host w what none { (w.begin host what).1 with now := max w.now t, cancelled := true }

/-! ## Evaluation -/

/-- The turns of a loop up to its result. -/
inductive Turns {σ β : Type} (turn : σ → World S → List (Deed S) → σ ⊕ β → World S → Prop) :
    σ → World S → List (Deed S) → β → World S → Prop
  | last {s : σ} {w w' : World S} {deeds : List (Deed S)} {b : β}
      (h : turn s w deeds (.inr b) w') : Turns turn s w deeds b w'
  | more {s s' : σ} {w w₁ w' : World S} {deeds more : List (Deed S)} {b : β}
      (h : turn s w deeds (.inl s') w₁) (h' : Turns turn s' w₁ more b w') :
      Turns turn s w (deeds ++ more) b w'

/-- Whether a routine by itself comes from one world to a result and another world, with deeds on
the way. -/
def Evaluates (host : Host S) {α : Type} :
    Routine S α → World S → List (Deed S) → α → World S → Prop
  | .done a, w, deeds, a', w' => deeds = [] ∧ a' = a ∧ w' = w
  | .perform e next, w, deeds, a, w' => ∃ b w₁ rest,
      w.perform host w.cancelled e = .value b w₁ ∧ deeds = w.deeds e.act? ++ rest ∧
        (next b).Evaluates host w₁ rest a w'
  | .wait what next, w, deeds, a, w' => ∃ w₁ rest,
      Awaited host w what w₁ ∧ deeds = w.deeds (some what.act) ++ rest ∧
        (next (w.begin host what).2.answer).Evaluates host w₁ rest a w'
  | .race what next, w, deeds, a, w' => ∃ answer w₁ rest,
      Raced host w what answer w₁ ∧ deeds = w.deeds (some what.act) ++ rest ∧
        (next answer).Evaluates host w₁ rest a w'
  | .loop s body next, w, deeds, a, w' => ∃ b w₁ turns rest,
      Turns (fun s w deeds turn w' => (body s).Evaluates host w deeds turn w') s w turns b w₁ ∧
        deeds = turns ++ rest ∧ (next b).Evaluates host w₁ rest a w'

variable {host : Host S} {w w₁ w' : World S} {deeds rest : List (Deed S)}

/-- A wait that has an end is answered then. -/
theorem exists_awaited {what : Wait S β} {d : Nat} (hdue : (w.begin host what).2.due = some d) :
    ∃ w₁, Awaited host w what w₁ ∧ w₁.now = max w.now d ∧
      w₁.past = (w.begin host what).1.past ∧ w₁.journal = (w.begin host what).1.journal := by
  by_cases h : d ≤ w.now
  · refine ⟨_, .atOnce hdue h, ?_, World.past_deliver _ _, World.journal_deliver _ _⟩
    rw [World.now_deliver, World.now_begin, Nat.max_eq_left h]
  · have hlt := Nat.lt_of_not_le h
    refine ⟨_, .later hdue hlt, ?_, World.past_deliver _ _, World.journal_deliver _ _⟩
    rw [World.now_deliver, Nat.max_eq_right (Nat.le_of_lt hlt)]
    rfl

/-! ## Composition -/

/-- A routine and what follows it evaluate one after the other. -/
theorem evaluates_andThen {p : Routine S α} {k : α → Routine S β} {b : β} :
    (p.andThen k).Evaluates host w deeds b w' ↔ ∃ a w₁ before after,
      p.Evaluates host w before a w₁ ∧ (k a).Evaluates host w₁ after b w' ∧
        deeds = before ++ after := by
  induction p generalizing w deeds with
  | done a =>
      constructor
      · intro h
        exact ⟨a, w, [], deeds, ⟨rfl, rfl, rfl⟩, h, rfl⟩
      · rintro ⟨_, _, _, after, ⟨rfl, rfl, rfl⟩, h, rfl⟩
        exact h
  | perform e next ih =>
      constructor
      · rintro ⟨c, w₁, rest, he, rfl, h⟩
        rcases (ih c).1 h with ⟨a, w₂, before, after, hp, hk, rfl⟩
        exact ⟨a, w₂, _, after, ⟨c, w₁, before, he, rfl, hp⟩, hk, (List.append_assoc _ _ _).symm⟩
      · rintro ⟨a, w₂, _, after, ⟨c, w₁, before, he, rfl, hp⟩, hk, rfl⟩
        exact ⟨c, w₁, before ++ after, he, List.append_assoc _ _ _,
          (ih c).2 ⟨a, w₂, before, after, hp, hk, rfl⟩⟩
  | wait what next ih =>
      constructor
      · rintro ⟨w₁, rest, hw, rfl, h⟩
        rcases (ih _).1 h with ⟨a, w₂, before, after, hp, hk, rfl⟩
        exact ⟨a, w₂, _, after, ⟨w₁, before, hw, rfl, hp⟩, hk, (List.append_assoc _ _ _).symm⟩
      · rintro ⟨a, w₂, _, after, ⟨w₁, before, hw, rfl, hp⟩, hk, rfl⟩
        exact ⟨w₁, before ++ after, hw, List.append_assoc _ _ _,
          (ih _).2 ⟨a, w₂, before, after, hp, hk, rfl⟩⟩
  | race what next ih =>
      constructor
      · rintro ⟨answer, w₁, rest, hw, rfl, h⟩
        rcases (ih _).1 h with ⟨a, w₂, before, after, hp, hk, rfl⟩
        exact ⟨a, w₂, _, after, ⟨answer, w₁, before, hw, rfl, hp⟩, hk,
          (List.append_assoc _ _ _).symm⟩
      · rintro ⟨a, w₂, _, after, ⟨answer, w₁, before, hw, rfl, hp⟩, hk, rfl⟩
        exact ⟨answer, w₁, before ++ after, hw, List.append_assoc _ _ _,
          (ih _).2 ⟨a, w₂, before, after, hp, hk, rfl⟩⟩
  | loop s body next _ ih =>
      constructor
      · rintro ⟨c, w₁, turns, rest, hturns, rfl, h⟩
        rcases (ih c).1 h with ⟨a, w₂, before, after, hp, hk, rfl⟩
        exact ⟨a, w₂, _, after, ⟨c, w₁, turns, before, hturns, rfl, hp⟩, hk,
          (List.append_assoc _ _ _).symm⟩
      · rintro ⟨a, w₂, _, after, ⟨c, w₁, turns, before, hturns, rfl, hp⟩, hk, rfl⟩
        exact ⟨c, w₁, turns, before ++ after, hturns, List.append_assoc _ _ _,
          (ih c).2 ⟨a, w₂, before, after, hp, hk, rfl⟩⟩

theorem evaluates_bind {p : Routine S α} {k : α → Routine S β} {b : β} :
    (p >>= k).Evaluates host w deeds b w' ↔ ∃ a w₁ before after,
      p.Evaluates host w before a w₁ ∧ (k a).Evaluates host w₁ after b w' ∧
        deeds = before ++ after :=
  evaluates_andThen

theorem evaluates_pure {a a' : α} :
    (pure a : Routine S α).Evaluates host w deeds a' w' ↔ deeds = [] ∧ a' = a ∧ w' = w :=
  Iff.rfl

theorem evaluates_act {e : Effect S β} {b : β} :
    (act e).Evaluates host w deeds b w' ↔
      w.perform host w.cancelled e = .value b w' ∧ deeds = w.deeds e.act? := by
  constructor
  · rintro ⟨_, _, _, he, rfl, rfl, rfl, rfl⟩
    exact ⟨he, List.append_nil _⟩
  · rintro ⟨he, rfl⟩
    exact ⟨b, w', [], he, (List.append_nil _).symm, rfl, rfl, rfl⟩

theorem evaluates_await {what : Wait S β} {b : β} :
    (await what).Evaluates host w deeds b w' ↔
      Awaited host w what w' ∧ b = (w.begin host what).2.answer ∧
        deeds = w.deeds (some what.act) := by
  constructor
  · rintro ⟨_, _, hw, rfl, rfl, rfl, rfl⟩
    exact ⟨hw, rfl, List.append_nil _⟩
  · rintro ⟨hw, rfl, rfl⟩
    exact ⟨w', [], hw, (List.append_nil _).symm, rfl, rfl, rfl⟩

theorem evaluates_sleep (host : Host S) (w : World S) (d : Duration) :
    ∃ w₁, (sleep d : Routine S Unit).Evaluates host w (w.deeds (some (.sleeps d))) () w₁ ∧
      w₁.now = max w.now (host.clock.deadline w.now d) ∧ w₁.past = w.past ∧
        w₁.journal = w.journal := by
  have hdue : (w.begin host (.timer d)).2.due = some (host.clock.deadline w.now d) := rfl
  rcases exists_awaited hdue with ⟨w₁, hawaited, hnow, hpast, hjournal⟩
  exact ⟨w₁, evaluates_await.2 ⟨hawaited, rfl, rfl⟩, hnow, hpast, hjournal⟩

theorem evaluates_iterate {s : σ} {body : σ → Routine S (σ ⊕ β)} {b : β} :
    (iterate s body).Evaluates host w deeds b w' ↔
      Turns (fun s w deeds turn w' => (body s).Evaluates host w deeds turn w') s w deeds b w' := by
  constructor
  · rintro ⟨_, _, turns, _, hturns, rfl, rfl, rfl, rfl⟩
    rwa [List.append_nil]
  · intro h
    exact ⟨b, w', deeds, [], h, (List.append_nil _).symm, rfl, rfl, rfl⟩

end Routine
end TxWorkload
