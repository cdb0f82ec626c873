import TxWorkload.Proofs.Routine.Conduct
import TxWorkload.Proofs.Routine.Record

/-!
# Discipline — what a routine does in a fixed order

A licence forbids things for good. A discipline forbids them for a time: it knows how far a routine
has come, says which effects are allowed at each stage, and moves on with every effect and its
answer. A routine waits, loops and draws words only at rest, so nothing that it has begun is left
half done when it is cancelled. As with licences, all this is read off the tree, and every step of a
strand does what its stage allows.
-/

namespace TxWorkload
namespace Routine

/-- An order in which effects have to come. -/
structure Discipline (S : Signature) where
  /-- How far a routine has come. -/
  Stage : Type
  /-- The stage at which nothing is left half done. -/
  rest : Stage
  allows : Stage → {β : Type} → Effect S β → Prop
  /-- The stage after an effect and its answer. -/
  next : Stage → {β : Type} → Effect S β → β → Stage
  /-- Words, which may run out, are drawn at rest only. -/
  draw_rest : ∀ {stage : Stage} {β : Type} {d : Random.Draw β},
    allows stage (.draw d : Effect S β) → stage = rest

variable {S : Signature} {α β σ : Type} {D : Discipline S}

/-- Nothing is left half done. -/
def atRest (D : Discipline S) {α : Type} (_ : α) (stage : D.Stage) : Prop :=
  stage = D.rest

/-- Whether a routine obeys a discipline from a stage on; the postcondition tells of its result and
of the stage that it comes to. -/
def Obeys (D : Discipline S) {α : Type} : Routine S α → (α → D.Stage → Prop) → D.Stage → Prop
  | .done a, Q, stage => Q a stage
  | .perform e next, Q, stage => D.allows stage e ∧ ∀ b, (next b).Obeys D Q (D.next stage e b)
  | .wait _ next, Q, stage => stage = D.rest ∧ ∀ b, (next b).Obeys D Q D.rest
  | .race _ next, Q, stage => stage = D.rest ∧ ∀ b, (next b).Obeys D Q D.rest
  | .loop _ body next, Q, stage =>
      stage = D.rest ∧ (∀ s, (body s).Obeys D (atRest D) D.rest) ∧ ∀ b, (next b).Obeys D Q D.rest

/-! ## Composition -/

theorem obeys_mono {p : Routine S α} {Q Q' : α → D.Stage → Prop} {stage : D.Stage}
    (hp : p.Obeys D Q stage) (hQ : ∀ a stage, Q a stage → Q' a stage) : p.Obeys D Q' stage := by
  induction p generalizing stage with
  | done a => exact hQ a stage hp
  | perform e next ih => exact ⟨hp.1, fun b => ih b (hp.2 b) hQ⟩
  | wait what next ih => exact ⟨hp.1, fun b => ih b (hp.2 b) hQ⟩
  | race what next ih => exact ⟨hp.1, fun b => ih b (hp.2 b) hQ⟩
  | loop s body next _ ih => exact ⟨hp.1, hp.2.1, fun b => ih b (hp.2.2 b) hQ⟩

theorem obeys_andThen {p : Routine S α} {k : α → Routine S β} {Q : β → D.Stage → Prop}
    {stage : D.Stage} (hp : p.Obeys D (fun a => (k a).Obeys D Q) stage) :
    (p.andThen k).Obeys D Q stage := by
  induction p generalizing stage with
  | done a => exact hp
  | perform e next ih => exact ⟨hp.1, fun b => ih b (hp.2 b)⟩
  | wait what next ih => exact ⟨hp.1, fun b => ih b (hp.2 b)⟩
  | race what next ih => exact ⟨hp.1, fun b => ih b (hp.2 b)⟩
  | loop s body next _ ih => exact ⟨hp.1, hp.2.1, fun b => ih b (hp.2.2 b)⟩

theorem obeys_bind {p : Routine S α} {k : α → Routine S β} {P : α → D.Stage → Prop}
    {Q : β → D.Stage → Prop} {stage : D.Stage} (hp : p.Obeys D P stage)
    (hk : ∀ a stage, P a stage → (k a).Obeys D Q stage) : (p >>= k).Obeys D Q stage :=
  obeys_andThen (obeys_mono hp hk)

/-- One routine after another, with a rest in between. -/
theorem obeys_after {p : Routine S α} {k : α → Routine S β} {Q : β → D.Stage → Prop}
    {stage : D.Stage} (hp : p.Obeys D (atRest D) stage) (hk : ∀ a, (k a).Obeys D Q D.rest) :
    (p >>= k).Obeys D Q stage := by
  refine obeys_bind hp ?_
  rintro a stage rfl
  exact hk a

theorem obeys_iterate {s : σ} {body : σ → Routine S (σ ⊕ β)}
    (hbody : ∀ s, (body s).Obeys D (atRest D) D.rest) :
    (iterate s body).Obeys D (atRest D) D.rest :=
  ⟨rfl, hbody, fun _ => rfl⟩

/-- The effects that are allowed at rest and do not end it. -/
def Discipline.neutral (D : Discipline S) : Licence S where
  effect e := D.allows D.rest e ∧ ∀ b, D.next D.rest e b = D.rest
  wait _ _ _ := True
  loops := True

theorem obeys_of_within {p : Routine S α} (hp : p.Within D.neutral) :
    p.Obeys D (atRest D) D.rest := by
  induction p with
  | done a => exact rfl
  | perform e next ih =>
      refine ⟨hp.1.1, fun b => ?_⟩
      rw [hp.1.2 b]
      exact ih b (hp.2 b)
  | wait what next ih => exact ⟨rfl, fun b => ih b (hp.2 b)⟩
  | race what next ih => exact ⟨rfl, fun b => ih b (hp.2 b)⟩
  | loop s body next ihb ih =>
      exact ⟨rfl, fun s => ihb s (hp.2.1 s), fun b => ih b (hp.2.2 b)⟩

/-- What a routine leaves behind that may be cut short: it is cut short at rest only. -/
def orAtRest (D : Discipline S) (Q : α → D.Stage → Prop) : Option α → D.Stage → Prop
  | none, stage => stage = D.rest
  | some a, stage => Q a stage

theorem obeys_guarded {p : Routine S α} {Q : α → D.Stage → Prop} {stage : D.Stage}
    (hp : p.Obeys D Q stage) : p.guarded.Obeys D (orAtRest D Q) stage := by
  induction p generalizing stage with
  | done a =>
      rw [guarded]
      exact hp
  | perform e next ih =>
      rw [guarded]
      exact ⟨hp.1, fun b => ih b (hp.2 b)⟩
  | wait what next ih =>
      rw [guarded]
      refine ⟨hp.1, fun b => ?_⟩
      cases b with
      | none => exact rfl
      | some b => exact ih b (hp.2 b)
  | race what next ih =>
      rw [guarded]
      refine ⟨hp.1, fun b => ?_⟩
      cases b with
      | none => exact rfl
      | some b => exact ih (some b) (hp.2 (some b))
  | loop s body next ihb ih =>
      rw [guarded]
      -- A turn is at rest in the end, whether it is cut short or not.
      refine ⟨hp.1, fun s => obeys_andThen (obeys_mono (ihb s (hp.2.1 s)) ?_), fun b => ?_⟩
      · intro turn stage h
        cases turn with
        | none => exact h
        | some turn => exact h
      · cases b with
        | none => exact rfl
        | some b => exact ih b (hp.2.2 b)

theorem obeys_untilCancelled {p : Routine S α}
    (hcheck : D.neutral.effect (.checkpoint : Effect S Bool)) (hp : p.Obeys D (atRest D) D.rest) :
    (untilCancelled p).Obeys D (atRest D) D.rest := by
  refine ⟨hcheck.1, fun token => ?_⟩
  rw [hcheck.2 token]
  cases token with
  | true => exact rfl
  | false =>
      refine obeys_mono (obeys_guarded hp) ?_
      intro answer stage h
      cases answer with
      | none => exact h
      | some a => exact h

/-! ## Strands -/

namespace Strand

/-- Whether a strand obeys a discipline from a stage on, and ends at rest. -/
def Obeys (D : Discipline S) {α : Type} : Strand S α → D.Stage → Prop
  | .active p, stage => p.Obeys D (atRest D) stage
  | .blocked _ next, stage => stage = D.rest ∧ ∀ b, (next b).Obeys D (atRest D) D.rest
  | .contested _ next, stage => stage = D.rest ∧ ∀ b, (next b).Obeys D (atRest D) D.rest
  | .starved, stage => stage = D.rest
  | .aborted _, stage => stage = D.rest

variable {host : Host S} {token : Bool} {w w' : World S} {s s' : Strand S α} {stage : D.Stage}

/-- A step of a strand that obeys a discipline performs an effect that is allowed at its stage, or
leaves it at rest: then it begins or ends a wait, or the world stays as it is. -/
theorem obeys_of_advance {R : World S → World S → D.Stage → Prop}
    (hperform : ∀ {β : Type} {e : Effect S β} {b : β} {w w' : World S}, D.allows stage e →
      w.perform host token e = .value b w' → R w w' (D.next stage e b))
    (hidle : stage = D.rest → ∀ w, R w w D.rest)
    (hbegin : stage = D.rest → ∀ {β : Type} (what : Wait S β) (w : World S),
      R w (w.begin host what).1 D.rest)
    (hdeliver : stage = D.rest → ∀ {β : Type} (pending : World.Pending β) {w w' : World S},
      R w w' D.rest → R w (w'.deliver pending) D.rest)
    (h : s.Obeys D stage) (hs : s.advance host token w = some (w', s')) :
    ∃ stage', s'.Obeys D stage' ∧ R w w' stage' := by
  cases advances_of_advance hs with
  | value he => exact ⟨_, h.2 _, hperform h.1 he⟩
  | starve he =>
      rcases World.draw_of_perform_starved he with ⟨d, rfl, -⟩
      have hrest := D.draw_rest h.1
      exact ⟨D.rest, rfl, hidle hrest w⟩
  | abort he =>
      rcases World.draw_of_perform_aborted he with ⟨d, rfl, -⟩
      have hrest := D.draw_rest h.1
      exact ⟨D.rest, rfl, hidle hrest w⟩
  | answered _ => exact ⟨D.rest, h.2 _, hdeliver h.1 _ (hbegin h.1 _ w)⟩
  | blocks _ => exact ⟨D.rest, ⟨rfl, h.2⟩, hbegin h.1 _ w⟩
  | won _ => exact ⟨D.rest, h.2 _, hdeliver h.1 _ (hbegin h.1 _ w)⟩
  | races _ => exact ⟨D.rest, ⟨rfl, h.2⟩, hbegin h.1 _ w⟩
  | turn =>
      rcases h with ⟨hrest, hbody, hnext⟩
      refine ⟨D.rest, obeys_andThen (obeys_mono (hbody _) ?_), hidle hrest w⟩
      rintro turn stage rfl
      cases turn with
      | inl state => exact ⟨rfl, hbody, hnext⟩
      | inr b => exact hnext b
  | deliver _ => exact ⟨D.rest, h.2 _, hdeliver h.1 _ (hidle h.1 w)⟩
  | lose _ => exact ⟨D.rest, h.2 none, hidle h.1 w⟩
  | win _ _ => exact ⟨D.rest, h.2 _, hdeliver h.1 _ (hidle h.1 w)⟩

/-- A strand that cannot go on is at rest. -/
theorem rest_of_advance_eq_none (h : s.Obeys D stage) (hs : s.advance host token w = none) :
    stage = D.rest := by
  cases s with
  | active p =>
      cases p with
      | done a => exact h
      | perform e next =>
          simp only [advance] at hs
          split at hs <;> cases hs
      | wait what next => exact h.1
      | race what next => exact h.1
      | loop s body next => exact h.1
  | blocked pending next => exact h.1
  | contested pending next => exact h.1
  | starved => exact h
  | aborted cause => exact h

/-- A strand that is over is at rest. -/
theorem rest_of_isOver (h : s.Obeys D stage) (hs : s.isOver = true) : stage = D.rest := by
  cases s with
  | active p =>
      cases p with
      | done a => exact h
      | perform e next => cases hs
      | wait what next => cases hs
      | race what next => cases hs
      | loop s body next => cases hs
  | blocked pending next => cases hs
  | contested pending next => cases hs
  | starved => exact h
  | aborted cause => exact h

end Strand
end Routine
end TxWorkload
