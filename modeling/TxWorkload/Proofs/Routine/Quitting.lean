import TxWorkload.Routine.Cancellation
import TxWorkload.Proofs.Routine.Conduct

/-!
# Quitting — routines that give up at once when they are cancelled

A cancelled routine quits if all that it still does is to find out that it is cancelled; it may be
allowed to write lines while it does so. A routine is interruptible if it quits wherever it waits
and wherever it gives way. Both are read off the tree. So an interruptible routine that is stopped
while it rests does nothing any more.
-/

namespace TxWorkload
namespace Routine

variable {S : Signature} {α β σ : Type}

/-! ## Routines -/

/-- What a cancelled routine may do when it quits, and the answer that it gets. -/
def Looks (speaks : Prop) : {β : Type} → Effect S β → β → Prop
  | _, .isCancelled, token => token = true
  | _, .checkpoint, token => token = true
  | _, .log _ _, _ => speaks
  | _, _, _ => False

/-- Whether a cancelled routine does no more than to look, and ends so. -/
def Quits (speaks : Prop) {α : Type} : Routine S α → (α → Prop) → Prop
  | .done a, Q => Q a
  | .perform e next, Q => ∃ b, Looks speaks e b ∧ (next b).Quits speaks Q
  | .wait _ _, _ => False
  | .race _ _, _ => False
  | .loop s body next, Q =>
      (body s).Quits speaks fun turn => ∃ b, turn = .inr b ∧ (next b).Quits speaks Q

/-- What is to hold of the answer of a checkpoint. -/
def AtCheckpoint : {β : Type} → Effect S β → (β → Prop) → Prop
  | _, .checkpoint, P => P true
  | _, _, _ => True

/-- Whether a routine quits wherever it waits or gives way. -/
def Interruptible {α : Type} : Routine S α → (α → Prop) → Prop
  | .done _, _ => True
  | .perform e next, Q =>
      AtCheckpoint e (fun b => (next b).Quits False Q) ∧ ∀ b, (next b).Interruptible Q
  | .wait _ _, _ => False
  | .race _ next, Q => (next none).Quits False Q ∧ ∀ b, (next b).Interruptible Q
  | .loop _ body next, Q =>
      (∀ s, (body s).Interruptible fun turn => ∃ b, turn = .inr b ∧ (next b).Quits False Q) ∧
        ∀ b, (next b).Interruptible Q

/-! ## Composition -/

variable {speaks : Prop}

theorem quits_mono {p : Routine S α} {Q Q' : α → Prop} (hp : p.Quits speaks Q)
    (hQ : ∀ a, Q a → Q' a) : p.Quits speaks Q' := by
  induction p with
  | done a => exact hQ a hp
  | perform e next ih =>
      rcases hp with ⟨b, hb, hnext⟩
      exact ⟨b, hb, ih b hnext hQ⟩
  | wait what next ih => exact hp
  | race what next ih => exact hp
  | loop s body next ihb ih =>
      refine ihb s hp ?_
      rintro turn ⟨b, rfl, hnext⟩
      exact ⟨b, rfl, ih b hnext hQ⟩

theorem quits_andThen {p : Routine S α} {k : α → Routine S β} {Q : β → Prop}
    (hp : p.Quits speaks fun a => (k a).Quits speaks Q) : (p.andThen k).Quits speaks Q := by
  induction p with
  | done a => exact hp
  | perform e next ih =>
      rcases hp with ⟨b, hb, hnext⟩
      exact ⟨b, hb, ih b hnext⟩
  | wait what next ih => exact hp
  | race what next ih => exact hp
  | loop s body next _ ih =>
      refine quits_mono (p := body s) hp ?_
      rintro turn ⟨b, rfl, hnext⟩
      exact ⟨b, rfl, ih b hnext⟩

theorem atCheckpoint_mono {e : Effect S β} {P P' : β → Prop} (he : AtCheckpoint e P)
    (hP : ∀ b, P b → P' b) : AtCheckpoint e P' := by
  cases e with
  | checkpoint => exact hP true he
  | access a => exact trivial
  | log level text => exact trivial
  | mark m => exact trivial
  | isCancelled => exact trivial
  | cancel => exact trivial
  | clock => exact trivial
  | uptime => exact trivial
  | draw d => exact trivial

theorem interruptible_mono {p : Routine S α} {Q Q' : α → Prop} (hp : p.Interruptible Q)
    (hQ : ∀ a, Q a → Q' a) : p.Interruptible Q' := by
  induction p with
  | done a => exact trivial
  | perform e next ih =>
      exact ⟨atCheckpoint_mono hp.1 fun b h => quits_mono h hQ, fun b => ih b (hp.2 b) hQ⟩
  | wait what next ih => exact hp
  | race what next ih => exact ⟨quits_mono hp.1 hQ, fun b => ih b (hp.2 b) hQ⟩
  | loop s body next ihb ih =>
      refine ⟨fun s => ihb s (hp.1 s) ?_, fun b => ih b (hp.2 b) hQ⟩
      rintro turn ⟨b, rfl, hnext⟩
      exact ⟨b, rfl, quits_mono hnext hQ⟩

theorem interruptible_andThen {p : Routine S α} {k : α → Routine S β} {Q : β → Prop}
    (hp : p.Interruptible fun a => (k a).Quits False Q) (hk : ∀ a, (k a).Interruptible Q) :
    (p.andThen k).Interruptible Q := by
  induction p with
  | done a => exact hk a
  | perform e next ih =>
      exact ⟨atCheckpoint_mono hp.1 fun b h => quits_andThen h, fun b => ih b (hp.2 b) hk⟩
  | wait what next ih => exact hp
  | race what next ih => exact ⟨quits_andThen hp.1, fun b => ih b (hp.2 b) hk⟩
  | loop s body next _ ih =>
      refine ⟨fun s => interruptible_mono (hp.1 s) ?_, fun b => ih b (hp.2 b) hk⟩
      rintro turn ⟨b, rfl, hnext⟩
      exact ⟨b, rfl, quits_andThen hnext⟩

theorem interruptible_bind {p : Routine S α} {k : α → Routine S β} {P : α → Prop} {Q : β → Prop}
    (hp : p.Interruptible P) (hP : ∀ a, P a → (k a).Quits False Q)
    (hk : ∀ a, (k a).Interruptible Q) : (p >>= k).Interruptible Q :=
  interruptible_andThen (interruptible_mono hp hP) hk

theorem interruptible_iterate {s : σ} {body : σ → Routine S (σ ⊕ β)} {Q : β → Prop}
    (hbody : ∀ s, (body s).Interruptible fun turn => ∃ b, turn = .inr b ∧ Q b) :
    (iterate s body).Interruptible Q :=
  ⟨hbody, fun _ => trivial⟩

/-! ## What is cut short -/

/-- No checkpoints, and no loops. -/
def direct : Licence S where
  effect e := ∀ P, AtCheckpoint e P
  wait _ _ _ := True
  loops := False

/-- No waits either. -/
def outright : Licence S where
  effect e := ∀ P, AtCheckpoint e P
  wait _ _ _ := False
  loops := False

/-- What neither waits nor gives way cannot be interrupted. -/
theorem interruptible_outright {p : Routine S α} {Q : α → Prop} (hp : p.Within outright) :
    p.Interruptible Q := by
  induction p with
  | done a => exact trivial
  | perform e next ih => exact ⟨hp.1 _, fun b => ih b (hp.2 b)⟩
  | wait what next _ => exact hp.1.elim
  | race what next _ => exact hp.1.elim
  | loop s body next _ _ => exact hp.1.elim

/-- Work that is cut short has no result. -/
theorem interruptible_guarded {p : Routine S α} (hp : p.Within direct) :
    p.guarded.Interruptible (· = none) := by
  -- Every wait becomes a race here, and a lost race gives no result.
  induction p with
  | done a =>
      rw [guarded]
      exact trivial
  | perform e next ih =>
      rw [guarded]
      exact ⟨hp.1 _, fun b => ih b (hp.2 b)⟩
  | wait what next ih =>
      rw [guarded]
      refine ⟨rfl, ?_⟩
      intro b
      cases b with
      | none => exact trivial
      | some b => exact ih b (hp.2 b)
  | race what next ih =>
      rw [guarded]
      refine ⟨rfl, ?_⟩
      intro b
      cases b with
      | none => exact trivial
      | some b => exact ih (some b) (hp.2 (some b))
  | loop s body next _ _ => exact hp.1.elim

theorem interruptible_untilCancelled {p : Routine S α} (hp : p.Within direct) :
    (untilCancelled p).Interruptible (· = none) := by
  refine ⟨rfl, ?_⟩
  intro token
  cases token with
  | true => exact trivial
  | false => exact interruptible_guarded hp

theorem interruptible_sleepOrCancelled (d : Duration) :
    (sleepOrCancelled d : Routine S Bool).Interruptible (· = true) := by
  refine ⟨rfl, ?_⟩
  intro token
  cases token with
  | true => exact trivial
  | false => exact ⟨⟨true, rfl, rfl⟩, fun _ => ⟨trivial, fun _ => trivial⟩⟩

/-! ## Strands -/

namespace Strand

/-- Whether a cancelled strand does no more than to look from now on. -/
def Quits (speaks : Prop) : Strand S α → Prop
  | .active p => p.Quits speaks fun _ => True
  | .blocked _ _ => False
  | .contested _ next => (next none).Quits speaks fun _ => True
  | .starved => True
  | .aborted _ => True

/-- Whether a strand quits wherever it waits or gives way from now on. -/
def Interruptible : Strand S α → Prop
  | .active p => p.Interruptible fun _ => True
  | .blocked _ _ => False
  | .contested _ next =>
      ((next none).Quits False fun _ => True) ∧ ∀ b, (next b).Interruptible fun _ => True
  | .starved => True
  | .aborted _ => True

variable {host : Host S} {token : Bool} {w w' : World S} {s s' : Strand S α}

theorem interruptible_of_advance (h : s.Interruptible)
    (hs : s.advance host token w = some (w', s')) : s'.Interruptible := by
  cases advances_of_advance hs with
  | value _ => exact h.2 _
  | starve _ => exact trivial
  | abort _ => exact trivial
  | answered _ => exact h.elim
  | blocks _ => exact h.elim
  | won _ => exact h.2 _
  | races _ => exact h
  | turn =>
      refine interruptible_andThen (interruptible_mono (h.1 _) ?_) fun turn => ?_
      · rintro turn ⟨b, rfl, hnext⟩
        exact hnext
      · cases turn with
        | inl s => exact h
        | inr b => exact h.2 b
  | deliver _ => exact h.elim
  | lose _ => exact h.2 none
  | win _ _ => exact h.2 _

/-- An interruptible strand that gives way quits when it is stopped. -/
theorem quits_of_atCheckpoint (h : s.Interruptible) (hs : s.atCheckpoint = true) :
    s.Quits False := by
  unfold atCheckpoint at hs
  split at hs
  · exact ⟨true, rfl, h.1⟩
  · cases hs

/-- An interruptible strand that cannot go on quits when it is stopped. -/
theorem quits_of_advance_eq_none (h : s.Interruptible) (hs : s.advance host token w = none) :
    s.Quits False := by
  cases s with
  | active p =>
      cases p with
      | done a => exact trivial
      | perform e next =>
          simp only [advance] at hs
          split at hs <;> cases hs
      | wait what next => exact h.elim
      | race what next =>
          simp only [advance] at hs
          split at hs <;> cases hs
      | loop s body next => cases hs
  | blocked pending next => exact h.elim
  | contested pending next => exact h.1
  | starved => exact trivial
  | aborted cause => exact trivial

theorem perform_of_looks (host : Host S) (w : World S) {e : Effect S β} {b : β}
    (he : Looks speaks e b) :
    ∃ w', w.perform host true e = .value b w' ∧ w'.past = w.past ∧ (¬ speaks → w' = w) := by
  cases e with
  | isCancelled => cases he; exact ⟨w, rfl, rfl, fun _ => rfl⟩
  | checkpoint => cases he; exact ⟨w, rfl, rfl, fun _ => rfl⟩
  | log level text => exact ⟨_, rfl, rfl, fun h => absurd he h⟩
  | access a => exact he.elim
  | mark m => exact he.elim
  | cancel => exact he.elim
  | clock => exact he.elim
  | uptime => exact he.elim
  | draw d => exact he.elim

/-- A cancelled strand that quits sends nothing, and changes nothing unless it writes lines. -/
theorem quits_of_advance (h : s.Quits speaks) (hs : s.advance host true w = some (w', s')) :
    s'.Quits speaks ∧ w'.past = w.past ∧ (¬ speaks → w' = w) := by
  cases advances_of_advance hs with
  | value he =>
      rcases h with ⟨b, hb, hnext⟩
      -- The answer that the strand gets is the one for which it quits.
      rcases perform_of_looks host w hb with ⟨w'', he', hw''⟩
      cases he'.symm.trans he
      exact ⟨hnext, hw''⟩
  | starve _ => exact ⟨trivial, rfl, fun _ => rfl⟩
  | abort _ => exact ⟨trivial, rfl, fun _ => rfl⟩
  | answered _ => exact h.elim
  | blocks _ => exact h.elim
  | won _ => exact h.elim
  | races _ => exact h.elim
  | turn =>
      refine ⟨quits_andThen (quits_mono h ?_), rfl, fun _ => rfl⟩
      rintro turn ⟨b, rfl, hnext⟩
      exact hnext
  | deliver _ => exact h.elim
  | lose _ => exact ⟨h, rfl, fun _ => rfl⟩
  | win ht _ => cases ht

end Strand
end Routine
end TxWorkload
