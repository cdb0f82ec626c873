import TxWorkload.Proofs.Routine.Pact

/-!
# Ending — routines that come to an end

If a pact asks loops to end, a routine that keeps it makes finitely many steps, whatever others do
in between. This is stated as accessibility: there is no infinite sequence of steps of a strand
with things done by others before each of them.
-/

namespace TxWorkload
namespace Routine

variable {S : Signature} {α β : Type} {T : Pact S}

namespace Strand

/-- One step of a strand, after whatever others have done. -/
def Follows (T : Pact S) (y x : Strand S α × World S) : Prop :=
  ∃ w, T.rely x.2 w ∧ x.1.advance T.host (T.token w) w = some (y.2, y.1)

theorem acc_of_isOver {s : Strand S α} {w : World S} (h : s.isOver = true) :
    Acc (Follows T) (s, w) := by
  refine ⟨_, fun y hy => ?_⟩
  rcases y with ⟨t, v⟩
  rcases hy with ⟨w', -, hs⟩
  cases s with
  | active p =>
      cases p with
      | done a => cases hs
      | perform e next => cases h
      | wait what next => cases h
      | race what next => cases h
      | loop s body next => cases h
  | blocked pending next => cases h
  | contested pending next => cases h
  | starved => cases hs
  | aborted cause => cases hs

/-- A race ends if both of its outcomes lead to an end. -/
theorem acc_contested {pending : World.Pending β} {next : Option β → Routine S α}
    {lost : World S → Prop} {won : β → World S → Prop} {w : World S}
    (h : T.Races pending lost won w)
    (hlost : ∀ w, lost w → Acc (Follows T) (.active (next none), w))
    (hwon : ∀ b w, won b w → Acc (Follows T) (.active (next (some b)), w)) :
    Acc (Follows T) (.contested pending next, w) := by
  refine ⟨_, fun y hy => ?_⟩
  rcases y with ⟨t, v⟩
  rcases hy with ⟨w', hw, hs⟩
  have hp := h w' hw
  simp only [advance] at hs
  by_cases ht : T.token w' = true
  · rw [if_pos ht] at hs
    cases hs
    exact hlost _ (hp.1 ht)
  · rw [if_neg ht] at hs
    split at hs
    · rename_i he
      cases hs
      exact hwon _ _ (hp.2 (Bool.eq_false_iff.2 ht) he).2
    · cases hs

end Strand

open Strand (Follows)

/-- What follows one turn of a loop. -/
def onward {σ : Type} (body : σ → Routine S (σ ⊕ β)) (next : β → Routine S α) :
    σ ⊕ β → Routine S α
  | .inl s => .loop s body next
  | .inr b => next b

theorem acc_loop {σ : Type} {s : σ} {body : σ → Routine S (σ ⊕ β)} {next : β → Routine S α}
    {w : World S}
    (h : ∀ w', T.rely w w' → Acc (Follows T) (.active ((body s).andThen (onward body next)), w')) :
    Acc (Follows T) (.active (.loop s body next), w) := by
  refine ⟨_, fun y hy => ?_⟩
  rcases y with ⟨t, v⟩
  rcases hy with ⟨w', hw, hs⟩
  cases hs
  exact h _ hw

/-- A routine that keeps its pact ends if what follows it does. -/
theorem acc_andThen (ends : T.ends) {p : Routine S α} {k : α → Routine S β}
    {P : α → World S → Prop} {w : World S} (hp : p.Keeps T P w)
    (hk : ∀ a w, (∀ w', T.rely w w' → P a w') → Acc (Follows T) (.active (k a), w)) :
    Acc (Follows T) (.active (p.andThen k), w) := by
  -- The induction is on the routine; each of its leaves goes on with what follows.
  induction p generalizing w with
  | done a => exact hk a w hp
  | perform e next ih =>
      refine ⟨_, fun y hy => ?_⟩
      rcases y with ⟨t, v⟩
      rcases hy with ⟨w', hw, hs⟩
      simp only [andThen, Strand.advance] at hs
      have h := hp w' hw
      revert hs h
      cases w'.perform T.host (T.token w') e with
      | value b w'' => rintro ⟨⟩ h; exact ih b h.2 hk
      | starved => rintro ⟨⟩ -; exact Strand.acc_of_isOver rfl
      | aborted cause => exact fun _ h => h.elim
  | wait what next ih => exact hp.elim
  | race what next ih =>
      refine ⟨_, fun y hy => ?_⟩
      rcases y with ⟨t, v⟩
      rcases hy with ⟨w', hw, hs⟩
      simp only [andThen, Strand.advance] at hs
      have h := hp w' hw
      revert hs h
      dsimp only
      split
      · rintro ⟨⟩ h
        exact ih _ h.2 hk
      · rintro ⟨⟩ h
        exact Strand.acc_contested h.2 (fun w h => ih none h hk) fun b w h => ih (some b) h hk
  | loop s body next ihb ih =>
      rcases hp with ⟨I, r, hr, hI, hbody⟩
      -- The induction is on the unrolled loop: its turn starts in the very world that `r` measures.
      have hturn : ∀ x : _ × World S, I x.1 x.2 →
          Acc (Follows T) (.active ((body x.1).andThen
            (onward body fun b => (next b).andThen k)), x.2) := by
        intro x
        induction x using (hr ends).induction with
        | _ x ihx =>
            intro hx
            refine ihb x.1 (hbody x.1 x.2 hx) ?_
            intro turn w' h
            cases turn with
            | inl s' => exact acc_loop fun w'' hw => ihx (s', w'') (h w'' hw).2 (h w'' hw).1
            | inr b => exact ih b (h w' (T.rely_refl w')) hk
      exact acc_loop fun w' hw => hturn (s, w') (hI w' hw)

/-- A strand that keeps its pact makes finitely many steps. -/
theorem Strand.acc_of_keeps (ends : T.ends) {s : Strand S α} {Q : α → World S → Prop}
    {w : World S} (h : s.Keeps T Q w) : Acc (Follows T) (s, w) := by
  have hactive : ∀ {p : Routine S α} {w : World S}, p.Keeps T Q w →
      Acc (Follows T) (.active p, w) := by
    intro p w hp
    have hacc := acc_andThen ends (k := .done) hp fun a w _ => acc_of_isOver rfl
    rwa [andThen_done] at hacc
  cases s with
  | active p => exact hactive h
  | blocked pending next => exact h.elim
  | contested pending next => exact acc_contested h (fun w h => hactive h) fun b w h => hactive h
  | starved => exact acc_of_isOver rfl
  | aborted cause => exact h.elim

end Routine
end TxWorkload
