import TxWorkload.Proofs.Random.Yield
import TxWorkload.Proofs.Routine.Conduct
import TxWorkload.Proofs.Routine.Record

/-!
# Drawing — conduct that depends on what was drawn

A licence is read off the tree for all answers that an effect could have. What is done behind a draw
may be allowed only for the values that the draw can give. A routine conforms to a licence if it
does nothing but what is allowed on the paths on which draws give what they can give. So does
whatever its strand becomes, as a draw gives nothing else.
-/

namespace TxWorkload
namespace Routine

variable {S : Signature} {α β σ : Type} {L : Licence S}

/-- Whether an effect can have an answer; of a draw it is a value from some supply. -/
def Effect.Gives {β : Type} : Effect S β → β → Prop
  | .draw d, b => ∃ supply rest, d supply = .value b rest
  | _, _ => True

/-- Whether a routine does nothing but what is allowed, if draws give what they can give. -/
def Conforms (L : Licence S) {α : Type} : Routine S α → Prop
  | .done _ => True
  | .perform e next => L.effect e ∧ ∀ b, e.Gives b → (next b).Conforms L
  | .wait what next => L.wait false what ∧ ∀ b, (next b).Conforms L
  | .race what next => L.wait true what ∧ ∀ b, (next b).Conforms L
  | .loop _ body next => L.loops ∧ (∀ s, (body s).Conforms L) ∧ ∀ b, (next b).Conforms L

/-! ## Composition -/

theorem conforms_of_within {p : Routine S α} (hp : p.Within L) : p.Conforms L := by
  induction p with
  | done a => exact trivial
  | perform e next ih => exact ⟨hp.1, fun b _ => ih b (hp.2 b)⟩
  | wait what next ih => exact ⟨hp.1, fun b => ih b (hp.2 b)⟩
  | race what next ih => exact ⟨hp.1, fun b => ih b (hp.2 b)⟩
  | loop s body next ihb ih =>
      exact ⟨hp.1, fun s => ihb s (hp.2.1 s), fun b => ih b (hp.2.2 b)⟩

theorem conforms_andThen {p : Routine S α} {k : α → Routine S β} (hp : p.Conforms L)
    (hk : ∀ a, (k a).Conforms L) : (p.andThen k).Conforms L := by
  induction p with
  | done a => exact hk a
  | perform e next ih => exact ⟨hp.1, fun b hb => ih b (hp.2 b hb) hk⟩
  | wait what next ih => exact ⟨hp.1, fun b => ih b (hp.2 b) hk⟩
  | race what next ih => exact ⟨hp.1, fun b => ih b (hp.2 b) hk⟩
  | loop s body next _ ih => exact ⟨hp.1, hp.2.1, fun b => ih b (hp.2.2 b) hk⟩

theorem conforms_bind {p : Routine S α} {k : α → Routine S β} (hp : p.Conforms L)
    (hk : ∀ a, (k a).Conforms L) : (p >>= k).Conforms L :=
  conforms_andThen hp hk

theorem conforms_iterate {s : σ} {body : σ → Routine S (σ ⊕ β)} (hloops : L.loops)
    (hbody : ∀ s, (body s).Conforms L) : (iterate s body).Conforms L :=
  ⟨hloops, hbody, fun _ => trivial⟩

/-- What follows a draw may rely on what it yields. -/
theorem conforms_draw {d : Random.Draw α} {k : α → Routine S β} {P : α → Prop} (hd : d.Yields P)
    (heffect : L.effect (.draw d : Effect S α)) (hk : ∀ a, P a → (k a).Conforms L) :
    (draw d >>= k).Conforms L := by
  refine ⟨heffect, ?_⟩
  rintro a ⟨supply, rest, hdrawn⟩
  exact hk a (hd supply a rest hdrawn)

/-! ## Strands -/

theorem gives_of_perform {host : Host S} {token : Bool} {w w' : World S} {e : Effect S β} {b : β}
    (h : w.perform host token e = .value b w') : e.Gives b := by
  cases e with
  | draw d =>
      simp only [World.perform] at h
      split at h
      · rename_i hdrawn
        cases h
        exact ⟨_, _, hdrawn⟩
      · cases h
      · cases h
  | access a => exact trivial
  | log level text => exact trivial
  | mark m => exact trivial
  | isCancelled => exact trivial
  | checkpoint => exact trivial
  | cancel => exact trivial
  | clock => exact trivial
  | uptime => exact trivial

namespace Strand

/-- Whether a strand conforms to a licence from now on. -/
def Conforms (L : Licence S) {α : Type} : Strand S α → Prop
  | .active p => p.Conforms L
  | .blocked _ next => ∀ b, (next b).Conforms L
  | .contested _ next => ∀ b, (next b).Conforms L
  | .starved => True
  | .aborted _ => True

variable {host : Host S} {token : Bool} {w w' : World S} {s s' : Strand S α}

theorem conforms_of_advance (h : s.Conforms L) (hs : s.advance host token w = some (w', s')) :
    s'.Conforms L := by
  cases advances_of_advance hs with
  | value he => exact h.2 _ (gives_of_perform he)
  | starve _ => exact trivial
  | abort _ => exact trivial
  | answered _ => exact h.2 _
  | blocks _ => exact h.2
  | won _ => exact h.2 _
  | races _ => exact h.2
  | turn =>
      refine conforms_andThen (h.2.1 _) ?_
      intro turn
      cases turn with
      | inl state => exact h
      | inr b => exact h.2.2 b
  | deliver _ => exact h _
  | lose _ => exact h none
  | win _ _ => exact h _

/-- A strand is not aborted if every draw that is allowed to it always goes on or runs dry. -/
theorem ne_aborted_of_advance (hdraw : ∀ {β : Type} (d : Random.Draw β), L.effect (.draw d) →
      ∀ supply cause, d supply ≠ .abort cause)
    (h : s.Conforms L) (hs : s.advance host token w = some (w', s')) (cause : Abort) :
    s' ≠ .aborted cause := by
  rintro rfl
  cases advances_of_advance hs with
  | abort he =>
      rcases World.draw_of_perform_aborted he with ⟨d, rfl, habort⟩
      exact hdraw d h.1 _ _ habort

/-- A step of a strand keeps what every allowed effect and every wait keeps. -/
theorem preserves_of_advance {P : World S → Prop}
    (heffect : ∀ {β : Type} (e : Effect S β), L.effect e → ∀ {w b w'},
      w.perform host token e = .value b w' → P w → P w')
    (hbegin : ∀ {β : Type} (what : Wait S β) {w}, P w → P (w.begin host what).1)
    (hdeliver : ∀ {β : Type} (pending : World.Pending β) {w}, P w → P (w.deliver pending))
    (h : s.Conforms L) (hs : s.advance host token w = some (w', s')) (hw : P w) : P w' := by
  cases advances_of_advance hs with
  | value he => exact heffect _ h.1 he hw
  | starve _ => exact hw
  | abort _ => exact hw
  | answered _ => exact hdeliver _ (hbegin _ hw)
  | blocks _ => exact hbegin _ hw
  | won _ => exact hdeliver _ (hbegin _ hw)
  | races _ => exact hbegin _ hw
  | turn => exact hw
  | deliver _ => exact hdeliver _ hw
  | lose _ => exact hw
  | win _ _ => exact hdeliver _ hw

end Strand
end Routine
end TxWorkload
