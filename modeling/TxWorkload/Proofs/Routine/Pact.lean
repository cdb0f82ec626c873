import TxWorkload.Proofs.Routine.Conduct

/-!
# Pact — what a routine and its surroundings promise each other

Between two steps of a routine others act on the shared world and time passes. A pact says what
they may do meanwhile (`rely`), and what each step of the routine is to do in return
(`guarantee`). `Keeps` is the weakest condition on the world under which a routine keeps its pact
on every path and ends with a given postcondition; loops are covered by an invariant and, if they
are to end, by a well-founded relation. A routine that keeps a pact is never aborted, and each of
its waits races against cancellation.

The condition follows the strand from step to step (`Strand.keeps_of_advance`), so what it says of
a routine at the start holds of every schedule.
-/

namespace TxWorkload
namespace Routine

/-- The terms under which a routine runs beside others. -/
structure Pact (S : Signature) where
  host : Host S
  /-- Whether the routine is cancelled. -/
  token : World S → Bool
  /-- What others and the passing of time may do between two steps. -/
  rely : World S → World S → Prop
  /-- What a step of the routine is to do. -/
  guarantee : World S → World S → Prop
  /-- Whether every loop is to end. -/
  ends : Prop
  /-- Whether the routine may run out of words. -/
  starves : Prop
  rely_refl : ∀ w, rely w w
  rely_trans : ∀ {w₁ w₂ w₃}, rely w₁ w₂ → rely w₂ w₃ → rely w₁ w₃
  guarantee_refl : ∀ w, guarantee w w
  guarantee_trans : ∀ {w₁ w₂ w₃}, guarantee w₁ w₂ → guarantee w₂ w₃ → guarantee w₁ w₃

variable {S : Signature} {α β σ : Type} {T : Pact S}

/-! ## Conditions -/

namespace Pact

/-- What is to hold when a wait has ended: its answer leads on to `won`. -/
def Delivers (T : Pact S) (pending : World.Pending β) (won : β → World S → Prop)
    (before w : World S) : Prop :=
  T.guarantee before (w.deliver pending) ∧ won pending.answer (w.deliver pending)

/-- What is to hold while a wait races against cancellation: the race may be lost, or won. -/
def Races (T : Pact S) (pending : World.Pending β) (lost : World S → Prop)
    (won : β → World S → Prop) (w : World S) : Prop :=
  ∀ w', T.rely w w' →
    (T.token w' = true → lost w') ∧
      (T.token w' = false → w'.hasEnded pending = true → T.Delivers pending won w' w')

end Pact

/-- The condition under which a routine keeps its pact and ends with a postcondition. -/
def Keeps (T : Pact S) {α : Type} : Routine S α → (α → World S → Prop) → World S → Prop
  | .done a, Q, w => ∀ w', T.rely w w' → Q a w'
  | .perform e next, Q, w => ∀ w', T.rely w w' →
      match w'.perform T.host (T.token w') e with
      | .value b w'' => T.guarantee w' w'' ∧ (next b).Keeps T Q w''
      | .starved => T.starves
      | .aborted _ => False
  | .wait _ _, _, _ => False
  | .race what next, Q, w => ∀ w', T.rely w w' →
      let begun := w'.begin T.host what
      if begun.1.hasEnded begun.2 then
        T.Delivers begun.2 (fun b => (next (some b)).Keeps T Q) w' begun.1
      else
        T.guarantee w' begun.1 ∧
          T.Races begun.2 ((next none).Keeps T Q) (fun b => (next (some b)).Keeps T Q) begun.1
  | @loop _ _ _ σ s body next, Q, w =>
      ∃ (I : σ → World S → Prop) (r : σ × World S → σ × World S → Prop),
        (T.ends → WellFounded r) ∧ (∀ w', T.rely w w' → I s w') ∧
          ∀ s w, I s w → (body s).Keeps T (fun turn w' =>
            match turn with
            | .inl s' => I s' w' ∧ r (s', w') (s, w)
            | .inr b => (next b).Keeps T Q w') w

/-! ## Rules -/

/-- What others do meanwhile does not break the condition. -/
theorem keeps_of_rely {p : Routine S α} {Q : α → World S → Prop} {w w' : World S}
    (h : p.Keeps T Q w) (hw : T.rely w w') : p.Keeps T Q w' := by
  cases p with
  | done a => exact fun w'' hw' => h w'' (T.rely_trans hw hw')
  | perform e next => exact fun w'' hw' => h w'' (T.rely_trans hw hw')
  | wait what next => exact h
  | race what next => exact fun w'' hw' => h w'' (T.rely_trans hw hw')
  | loop s body next =>
      rcases h with ⟨I, r, hr, hI, hbody⟩
      exact ⟨I, r, hr, fun w'' hw' => hI w'' (T.rely_trans hw hw'), hbody⟩

namespace Pact

theorem Delivers.mono {pending : World.Pending β} {won won' : β → World S → Prop}
    {before w : World S} (hwon : ∀ b w, won b w → won' b w)
    (h : T.Delivers pending won before w) : T.Delivers pending won' before w :=
  ⟨h.1, hwon _ _ h.2⟩

theorem Races.mono {pending : World.Pending β} {lost lost' : World S → Prop}
    {won won' : β → World S → Prop} {w : World S} (hlost : ∀ w, lost w → lost' w)
    (hwon : ∀ b w, won b w → won' b w) (h : T.Races pending lost won w) :
    T.Races pending lost' won' w := by
  intro w' hw
  refine ⟨fun ht => hlost w' ((h w' hw).1 ht), fun ht he => ?_⟩
  exact ((h w' hw).2 ht he).mono hwon

theorem Races.of_rely {pending : World.Pending β} {lost : World S → Prop}
    {won : β → World S → Prop} {w w' : World S} (h : T.Races pending lost won w)
    (hw : T.rely w w') : T.Races pending lost won w' :=
  fun w'' hw' => h w'' (T.rely_trans hw hw')

end Pact

/-- A postcondition holds whatever others do afterwards, and may be weakened with that in mind. -/
theorem keeps_mono {p : Routine S α} {Q Q' : α → World S → Prop} {w : World S}
    (hp : p.Keeps T Q w) (hQ : ∀ a w, (∀ w', T.rely w w' → Q a w') → Q' a w) :
    p.Keeps T Q' w := by
  induction p generalizing w with
  | done a => exact fun w' hw => hQ a w' fun w'' hw' => hp w'' (T.rely_trans hw hw')
  | perform e next ih =>
      intro w' hw
      have h := hp w' hw
      revert h
      cases w'.perform T.host (T.token w') e with
      | value b w'' => exact fun h => ⟨h.1, ih b h.2 hQ⟩
      | starved => exact id
      | aborted cause => exact id
  | wait what next ih => exact hp
  | race what next ih =>
      intro w' hw
      have h := hp w' hw
      revert h
      dsimp only
      split
      · exact Pact.Delivers.mono fun b w h => ih (some b) h hQ
      · exact fun h => ⟨h.1, h.2.mono (fun w h => ih none h hQ) fun b w h => ih (some b) h hQ⟩
  | loop s body next ihb ih =>
      rcases hp with ⟨I, r, hr, hI, hbody⟩
      -- The invariant stays; only what the last turn leaves behind is weakened.
      refine ⟨I, r, hr, hI, fun s w hs => ihb s (hbody s w hs) ?_⟩
      intro turn w' h
      cases turn with
      | inl s' => exact h w' (T.rely_refl w')
      | inr b => exact ih b (h w' (T.rely_refl w')) hQ

/-- A routine may be continued from what it leaves behind. -/
theorem keeps_andThen {p : Routine S α} {k : α → Routine S β} {Q : β → World S → Prop}
    {w : World S} (hp : p.Keeps T (fun a => (k a).Keeps T Q) w) : (p.andThen k).Keeps T Q w := by
  induction p generalizing w with
  | done a => exact hp w (T.rely_refl w)
  | perform e next ih =>
      intro w' hw
      have h := hp w' hw
      revert h
      cases w'.perform T.host (T.token w') e with
      | value b w'' => exact fun h => ⟨h.1, ih b h.2⟩
      | starved => exact id
      | aborted cause => exact id
  | wait what next ih => exact hp
  | race what next ih =>
      intro w' hw
      have h := hp w' hw
      revert h
      dsimp only
      split
      · exact Pact.Delivers.mono fun b w h => ih (some b) h
      · exact fun h => ⟨h.1, h.2.mono (fun w h => ih none h) fun b w h => ih (some b) h⟩
  | loop s body next _ ih =>
      rcases hp with ⟨I, r, hr, hI, hbody⟩
      -- The continuation belongs to what follows the last turn.
      refine ⟨I, r, hr, hI, fun s w hs => keeps_mono (hbody s w hs) ?_⟩
      intro turn w' h
      cases turn with
      | inl s' => exact h w' (T.rely_refl w')
      | inr b => exact ih b (h w' (T.rely_refl w'))

theorem keeps_bind {p : Routine S α} {k : α → Routine S β} {P : α → World S → Prop}
    {Q : β → World S → Prop} {w : World S} (hp : p.Keeps T P w)
    (hk : ∀ a w, P a w → (k a).Keeps T Q w) : (p >>= k).Keeps T Q w :=
  keeps_andThen (keeps_mono hp fun a w h => hk a w (h w (T.rely_refl w)))

theorem keeps_pure {a : α} {Q : α → World S → Prop} {w : World S}
    (h : ∀ w', T.rely w w' → Q a w') : (pure a : Routine S α).Keeps T Q w :=
  h

/-- A loop keeps its pact if an invariant leads each turn to the next one or to the end; the
relation tells that the turns come to an end, if they are to. -/
theorem keeps_iterate {s : σ} {body : σ → Routine S (σ ⊕ β)} {Q : β → World S → Prop}
    {w : World S} (I : σ → World S → Prop) (r : σ × World S → σ × World S → Prop)
    (hr : T.ends → WellFounded r) (hI : ∀ w', T.rely w w' → I s w')
    (hbody : ∀ s w, I s w → (body s).Keeps T (fun turn w' =>
      match turn with
      | .inl s' => I s' w' ∧ r (s', w') (s, w)
      | .inr b => Q b w') w) : (iterate s body).Keeps T Q w := by
  refine ⟨I, r, hr, hI, fun s w hs => keeps_mono (hbody s w hs) ?_⟩
  intro turn w' h
  cases turn with
  | inl s' => exact h w' (T.rely_refl w')
  | inr b => exact h

/-- The postcondition of a step that answers and leaves a world. -/
theorem keeps_act {e : Effect S β} {Q : β → World S → Prop} {w : World S}
    (h : ∀ w', T.rely w w' →
      match w'.perform T.host (T.token w') e with
      | .value b w'' => T.guarantee w' w'' ∧ ∀ w₁, T.rely w'' w₁ → Q b w₁
      | .starved => T.starves
      | .aborted _ => False) : (act e).Keeps T Q w :=
  h

/-! ## What licensed steps leave alone -/

/-- Everything that is licensed keeps the pact and leaves a property of the world alone. -/
structure Pact.Respects (T : Pact S) (L : Licence S) (P : World S → Prop) : Prop where
  rely : ∀ {w w'}, T.rely w w' → P w → P w'
  effect : ∀ {β : Type} (e : Effect S β) w, L.effect e → P w →
    match w.perform T.host (T.token w) e with
    | .value _ w' => T.guarantee w w' ∧ P w'
    | .starved => T.starves
    | .aborted _ => False
  begin : ∀ {β : Type} (what : Wait S β) w, L.wait true what → P w →
    T.guarantee w (w.begin T.host what).1 ∧ P (w.begin T.host what).1
  deliver : ∀ {β : Type} (pending : World.Pending β) w, P w →
    T.guarantee w (w.deliver pending) ∧ P (w.deliver pending)
  raced : ∀ {β : Type} (what : Wait S β), ¬ L.wait false what
  loops : L.loops → ¬ T.ends

theorem keeps_of_within {L : Licence S} {P : World S → Prop} (hT : T.Respects L P)
    {p : Routine S α} {w : World S} (hp : p.Within L) (hw : P w) :
    p.Keeps T (fun _ => P) w := by
  induction p generalizing w with
  | done a => exact fun w' hr => hT.rely hr hw
  | perform e next ih =>
      intro w' hr
      have h := hT.effect e w' hp.1 (hT.rely hr hw)
      revert h
      cases w'.perform T.host (T.token w') e with
      | value b w'' => exact fun h => ⟨h.1, ih b (hp.2 b) h.2⟩
      | starved => exact id
      | aborted cause => exact id
  | wait what next ih => exact absurd hp.1 (hT.raced what)
  | race what next ih =>
      intro w' hr
      rcases hT.begin what w' hp.1 (hT.rely hr hw) with ⟨hbegun, hw₁⟩
      -- The answer is delivered at once, or later in a world that others have moved on.
      have hwon : ∀ w, P w → T.Delivers (w'.begin T.host what).2
          (fun b => (next (some b)).Keeps T fun _ => P) w w := fun w hw => by
        rcases hT.deliver (w'.begin T.host what).2 w hw with ⟨hg, hw'⟩
        exact ⟨hg, ih _ (hp.2 _) hw'⟩
      dsimp only
      split
      · exact ⟨T.guarantee_trans hbegun (hwon _ hw₁).1, (hwon _ hw₁).2⟩
      · refine ⟨hbegun, fun w₂ hr' => ?_⟩
        have hw₂ := hT.rely hr' hw₁
        exact ⟨fun _ => ih none (hp.2 none) hw₂, fun _ _ => hwon w₂ hw₂⟩
  | loop s body next ihb ih =>
      -- The property itself is the invariant, and no turn has to come closer to an end.
      refine ⟨fun _ => P, fun _ _ => True, fun h => absurd h (hT.loops hp.1),
        fun w' hr => hT.rely hr hw, fun s w hw => keeps_mono (ihb s (hp.2.1 s) hw) ?_⟩
      intro turn w' h
      have hw' := h w' (T.rely_refl w')
      cases turn with
      | inl s' => exact ⟨hw', trivial⟩
      | inr b => exact ih b (hp.2.2 b) hw'

/-! ## Strands -/

namespace Strand

/-- The condition under which a strand keeps the pact of its routine from now on. -/
def Keeps (T : Pact S) : Strand S α → (α → World S → Prop) → World S → Prop
  | .active p, Q => p.Keeps T Q
  | .blocked _ _, _ => fun _ => False
  | .contested pending next, Q =>
      T.Races pending ((next none).Keeps T Q) fun b => (next (some b)).Keeps T Q
  | .starved, _ => fun _ => T.starves
  | .aborted _, _ => fun _ => False

variable {s s' : Strand S α} {Q : α → World S → Prop} {w w' : World S}

theorem keeps_of_rely (h : s.Keeps T Q w) (hw : T.rely w w') : s.Keeps T Q w' := by
  cases s with
  | active p => exact Routine.keeps_of_rely h hw
  | blocked pending next => exact h
  | contested pending next => exact Pact.Races.of_rely h hw
  | starved => exact h
  | aborted cause => exact h

/-- A step of a strand that keeps its pact does what it has to, and the strand goes on so. -/
theorem keeps_of_advance (h : s.Keeps T Q w)
    (hs : s.advance T.host (T.token w) w = some (w', s')) :
    T.guarantee w w' ∧ s'.Keeps T Q w' := by
  cases advances_of_advance hs with
  | value he =>
      have hp := h w (T.rely_refl w)
      rw [he] at hp
      exact hp
  | starve he =>
      have hp := h w (T.rely_refl w)
      rw [he] at hp
      exact ⟨T.guarantee_refl w, hp⟩
  | abort he =>
      have hp := h w (T.rely_refl w)
      rw [he] at hp
      exact hp.elim
  | answered _ => exact h.elim
  | blocks _ => exact h.elim
  | won he =>
      have hp := h w (T.rely_refl w)
      dsimp only at hp
      rwa [if_pos he] at hp
  | races he =>
      have hp := h w (T.rely_refl w)
      dsimp only at hp
      rwa [if_neg (Bool.eq_false_iff.1 he)] at hp
  | turn =>
      rcases h with ⟨I, r, hr, hI, hbody⟩
      -- One turn is unrolled; what it leaves behind is what the rest of the loop starts from.
      refine ⟨T.guarantee_refl w, keeps_andThen ?_⟩
      refine keeps_mono (hbody _ w (hI w (T.rely_refl w))) ?_
      intro turn w' h
      cases turn with
      | inl s' => exact ⟨I, r, hr, fun w'' hw => (h w'' hw).1, hbody⟩
      | inr b => exact h w' (T.rely_refl w')
  | deliver _ => exact h.elim
  | lose ht => exact ⟨T.guarantee_refl w, (h w (T.rely_refl w)).1 ht⟩
  | win ht he => exact (h w (T.rely_refl w)).2 ht he

end Strand
end Routine
end TxWorkload
