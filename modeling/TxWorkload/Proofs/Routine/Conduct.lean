import TxWorkload.Routine.Cancellation
import TxWorkload.Routine.Strand

/-!
# Conduct — what a routine never does

A licence names the effects and waits that are allowed, and says whether a routine may loop. A
routine is within a licence if it does nothing else on any path, whatever the answers it gets.
This is read off the tree alone. Whatever a strand becomes stays within the licence, and each of
its steps does one of the licensed things.
-/

namespace TxWorkload
namespace Routine

/-- What a routine is allowed to do. -/
structure Licence (S : Signature) where
  effect : {β : Type} → Effect S β → Prop
  /-- The waits that race against cancellation (`true`), and those that do not. -/
  wait : Bool → {β : Type} → Wait S β → Prop
  loops : Prop

variable {S : Signature} {α β σ : Type} {L : Licence S}

/-- Whether a routine does nothing but what is allowed. -/
def Within (L : Licence S) {α : Type} : Routine S α → Prop
  | .done _ => True
  | .perform e next => L.effect e ∧ ∀ b, (next b).Within L
  | .wait what next => L.wait false what ∧ ∀ b, (next b).Within L
  | .race what next => L.wait true what ∧ ∀ b, (next b).Within L
  | .loop _ body next => L.loops ∧ (∀ s, (body s).Within L) ∧ ∀ b, (next b).Within L

/-! ## Composition -/

theorem within_andThen {p : Routine S α} {k : α → Routine S β} (hp : p.Within L)
    (hk : ∀ a, (k a).Within L) : (p.andThen k).Within L := by
  induction p with
  | done a => exact hk a
  | perform e next ih => exact ⟨hp.1, fun b => ih b (hp.2 b) hk⟩
  | wait what next ih => exact ⟨hp.1, fun b => ih b (hp.2 b) hk⟩
  | race what next ih => exact ⟨hp.1, fun b => ih b (hp.2 b) hk⟩
  | loop s body next _ ih => exact ⟨hp.1, hp.2.1, fun b => ih b (hp.2.2 b) hk⟩

theorem within_bind {p : Routine S α} {k : α → Routine S β} (hp : p.Within L)
    (hk : ∀ a, (k a).Within L) : (p >>= k).Within L :=
  within_andThen hp hk

/-- What a licence allows, a wider one allows as well. -/
theorem within_mono {L' : Licence S} {p : Routine S α} (hp : p.Within L)
    (heffect : ∀ {β : Type} (e : Effect S β), L.effect e → L'.effect e)
    (hwait : ∀ raced {β : Type} (what : Wait S β), L.wait raced what → L'.wait raced what)
    (hloops : L.loops → L'.loops) : p.Within L' := by
  induction p with
  | done a => exact trivial
  | perform e next ih => exact ⟨heffect e hp.1, fun b => ih b (hp.2 b)⟩
  | wait what next ih => exact ⟨hwait _ what hp.1, fun b => ih b (hp.2 b)⟩
  | race what next ih => exact ⟨hwait _ what hp.1, fun b => ih b (hp.2 b)⟩
  | loop s body next ihb ih =>
      exact ⟨hloops hp.1, fun s => ihb s (hp.2.1 s), fun b => ih b (hp.2.2 b)⟩

/-- What may be waited for in vain may be waited for in a race. -/
theorem within_guarded {L' : Licence S} {p : Routine S α} (hp : p.Within L)
    (heffect : ∀ {β : Type} (e : Effect S β), L.effect e → L'.effect e)
    (hwait : ∀ raced {β : Type} (what : Wait S β), L.wait raced what → L'.wait true what)
    (hloops : L.loops → L'.loops) : p.guarded.Within L' := by
  induction p with
  | done a => exact trivial
  | perform e next ih => exact ⟨heffect e hp.1, fun b => ih b (hp.2 b)⟩
  | wait what next ih =>
      rw [guarded]
      refine ⟨hwait _ what hp.1, fun b => ?_⟩
      cases b with
      | none => exact trivial
      | some b => exact ih b (hp.2 b)
  | race what next ih =>
      rw [guarded]
      refine ⟨hwait _ what hp.1, fun b => ?_⟩
      cases b with
      | none => exact trivial
      | some b => exact ih (some b) (hp.2 (some b))
  | loop s body next ihb ih =>
      rw [guarded]
      -- A turn that is cut short ends the loop, and so does the loop itself.
      refine ⟨hloops hp.1, fun s => ?_, fun b => ?_⟩
      · exact within_andThen (ihb s (hp.2.1 s)) fun turn => trivial
      · cases b with
        | none => exact trivial
        | some b => exact ih b (hp.2.2 b)

/-- The licence that forbids nothing. -/
def anything : Licence S where
  effect _ := True
  wait _ _ _ := True
  loops := True

theorem within_anything (p : Routine S α) : p.Within anything := by
  induction p with
  | done a => exact trivial
  | perform e next ih => exact ⟨trivial, ih⟩
  | wait what next ih => exact ⟨trivial, ih⟩
  | race what next ih => exact ⟨trivial, ih⟩
  | loop s body next ihb ih => exact ⟨trivial, ihb, ih⟩

theorem within_untilCancelled {L' : Licence S} {p : Routine S α} (hp : p.Within L)
    (heffect : ∀ {β : Type} (e : Effect S β), L.effect e → L'.effect e)
    (hwait : ∀ raced {β : Type} (what : Wait S β), L.wait raced what → L'.wait true what)
    (hloops : L.loops → L'.loops) (hcheck : L'.effect (.checkpoint : Effect S Bool)) :
    (untilCancelled p).Within L' := by
  refine ⟨hcheck, fun token => ?_⟩
  cases token with
  | true => exact trivial
  | false => exact within_guarded hp heffect hwait hloops

theorem within_sleepOrCancelled {d : Duration}
    (hcheck : L.effect (.checkpoint : Effect S Bool))
    (hlook : L.effect (.isCancelled : Effect S Bool))
    (hwait : L.wait true (.timer d : Wait S Unit)) :
    (sleepOrCancelled d : Routine S Bool).Within L := by
  refine ⟨hcheck, fun token => ?_⟩
  cases token with
  | true => exact trivial
  | false => exact ⟨hwait, fun _ => ⟨hlook, fun _ => trivial⟩⟩

theorem within_iterate {s : σ} {body : σ → Routine S (σ ⊕ β)} (hloops : L.loops)
    (hbody : ∀ s, (body s).Within L) : (iterate s body).Within L :=
  ⟨hloops, hbody, fun _ => trivial⟩

/-! ## Strands -/

namespace Strand

/-- What one step of a strand can do to the world and to the strand. -/
inductive Advances (host : Host S) (token : Bool) :
    World S → Strand S α → World S → Strand S α → Prop
  | value {β : Type} {w w' : World S} {e : Effect S β} {b : β} {next : β → Routine S α}
      (h : w.perform host token e = .value b w') :
      Advances host token w (.active (.perform e next)) w' (.active (next b))
  | starve {β : Type} {w : World S} {e : Effect S β} {next : β → Routine S α}
      (h : w.perform host token e = .starved) :
      Advances host token w (.active (.perform e next)) w .starved
  | abort {β : Type} {w : World S} {e : Effect S β} {next : β → Routine S α} {cause : Abort}
      (h : w.perform host token e = .aborted cause) :
      Advances host token w (.active (.perform e next)) w (.aborted cause)
  | answered {β : Type} {w : World S} {what : Wait S β} {next : β → Routine S α}
      (h : (w.begin host what).1.hasEnded (w.begin host what).2 = true) :
      Advances host token w (.active (.wait what next))
        ((w.begin host what).1.deliver (w.begin host what).2)
        (.active (next (w.begin host what).2.answer))
  | blocks {β : Type} {w : World S} {what : Wait S β} {next : β → Routine S α}
      (h : (w.begin host what).1.hasEnded (w.begin host what).2 = false) :
      Advances host token w (.active (.wait what next)) (w.begin host what).1
        (.blocked (w.begin host what).2 next)
  | won {β : Type} {w : World S} {what : Wait S β} {next : Option β → Routine S α}
      (h : (w.begin host what).1.hasEnded (w.begin host what).2 = true) :
      Advances host token w (.active (.race what next))
        ((w.begin host what).1.deliver (w.begin host what).2)
        (.active (next (some (w.begin host what).2.answer)))
  | races {β : Type} {w : World S} {what : Wait S β} {next : Option β → Routine S α}
      (h : (w.begin host what).1.hasEnded (w.begin host what).2 = false) :
      Advances host token w (.active (.race what next)) (w.begin host what).1
        (.contested (w.begin host what).2 next)
  | turn {β σ : Type} {w : World S} {state : σ} {body : σ → Routine S (σ ⊕ β)}
      {next : β → Routine S α} :
      Advances host token w (.active (.loop state body next)) w
        (.active ((body state).andThen fun turn =>
          match turn with
          | .inl state => .loop state body next
          | .inr b => next b))
  | deliver {β : Type} {w : World S} {pending : World.Pending β} {next : β → Routine S α}
      (h : w.hasEnded pending = true) :
      Advances host token w (.blocked pending next) (w.deliver pending)
        (.active (next pending.answer))
  | lose {β : Type} {w : World S} {pending : World.Pending β} {next : Option β → Routine S α}
      (h : token = true) :
      Advances host token w (.contested pending next) w (.active (next none))
  | win {β : Type} {w : World S} {pending : World.Pending β} {next : Option β → Routine S α}
      (h : token = false) (he : w.hasEnded pending = true) :
      Advances host token w (.contested pending next) (w.deliver pending)
        (.active (next (some pending.answer)))

variable {host : Host S} {token : Bool} {w w' : World S} {s s' : Strand S α}

theorem advances_of_advance (hs : s.advance host token w = some (w', s')) :
    Advances host token w s w' s' := by
  cases s with
  | active p =>
      cases p with
      | done a => cases hs
      | perform e next =>
          simp only [advance] at hs
          split at hs
          · rename_i he
            cases hs
            exact .value he
          · rename_i he
            cases hs
            exact .starve he
          · rename_i he
            cases hs
            exact .abort he
      | wait what next =>
          simp only [advance] at hs
          split at hs
          · rename_i he
            cases hs
            exact .answered he
          · rename_i he
            cases hs
            exact .blocks (Bool.eq_false_iff.2 he)
      | race what next =>
          simp only [advance] at hs
          split at hs
          · rename_i he
            cases hs
            exact .won he
          · rename_i he
            cases hs
            exact .races (Bool.eq_false_iff.2 he)
      | loop state body next =>
          cases hs
          exact .turn
  | blocked pending next =>
      simp only [advance] at hs
      split at hs
      · rename_i he
        cases hs
        exact .deliver he
      · cases hs
  | contested pending next =>
      simp only [advance] at hs
      split at hs
      · rename_i ht
        cases hs
        exact .lose ht
      · rename_i ht
        split at hs
        · rename_i he
          cases hs
          exact .win (Bool.eq_false_iff.2 ht) he
        · cases hs
  | starved => cases hs
  | aborted cause => cases hs

/-- Whether a strand does nothing but what is allowed from now on. -/
def Within (L : Licence S) {α : Type} : Strand S α → Prop
  | .active p => p.Within L
  | .blocked _ next => (∃ (γ : Type) (what : Wait S γ), L.wait false what) ∧ ∀ b, (next b).Within L
  | .contested _ next => ∀ b, (next b).Within L
  | .starved => True
  | .aborted _ => True

/-- A strand stays within its licence. -/
theorem within_of_advance (h : s.Within L) (hs : s.advance host token w = some (w', s')) :
    s'.Within L := by
  cases advances_of_advance hs with
  | value _ => exact h.2 _
  | starve _ => exact trivial
  | abort _ => exact trivial
  | answered _ => exact h.2 _
  | blocks _ => exact ⟨⟨_, _, h.1⟩, h.2⟩
  | won _ => exact h.2 _
  | races _ => exact h.2
  | turn =>
      refine within_andThen (h.2.1 _) ?_
      intro turn
      cases turn with
      | inl state => exact h
      | inr b => exact h.2.2 b
  | deliver _ => exact h.2 _
  | lose _ => exact h none
  | win _ _ => exact h _

/-- What all licensed things do to the world, a step of a strand does. -/
theorem relates_of_advance {R : World S → World S → Prop} (hrefl : ∀ w, R w w)
    (htrans : ∀ {w₁ w₂ w₃}, R w₁ w₂ → R w₂ w₃ → R w₁ w₃)
    (heffect : ∀ {β : Type} (e : Effect S β), L.effect e → ∀ w b w',
      w.perform host token e = .value b w' → R w w')
    (hbegin : ∀ raced {β : Type} (what : Wait S β), L.wait raced what → ∀ w,
      R w (w.begin host what).1)
    (hdeliver : ∀ {β : Type} (pending : World.Pending β) (w : World S), R w (w.deliver pending))
    (h : s.Within L) (hs : s.advance host token w = some (w', s')) : R w w' := by
  cases advances_of_advance hs with
  | value he => exact heffect _ h.1 _ _ _ he
  | starve _ => exact hrefl _
  | abort _ => exact hrefl _
  | answered _ => exact htrans (hbegin false _ h.1 _) (hdeliver _ _)
  | blocks _ => exact hbegin false _ h.1 _
  | won _ => exact htrans (hbegin true _ h.1 _) (hdeliver _ _)
  | races _ => exact hbegin true _ h.1 _
  | turn => exact hrefl _
  | deliver _ => exact hdeliver _ _
  | lose _ => exact hrefl _
  | win _ _ => exact hdeliver _ _

theorem within_anything (s : Strand S α) : s.Within anything := by
  cases s with
  | active p => exact Routine.within_anything p
  | blocked pending next =>
      exact ⟨⟨Unit, .timer (.ofSecs 0), trivial⟩, fun b => Routine.within_anything (next b)⟩
  | contested pending next => exact fun b => Routine.within_anything (next b)
  | starved => exact trivial
  | aborted cause => exact trivial

/-- What effects, begun waits and delivered answers do to the world, a step of any strand does. -/
theorem relates_of_step {R : World S → World S → Prop} (hrefl : ∀ w, R w w)
    (htrans : ∀ {w₁ w₂ w₃}, R w₁ w₂ → R w₂ w₃ → R w₁ w₃)
    (hperform : ∀ {β : Type} {e : Effect S β} {w : World S} {b : β} {w' : World S},
      w.perform host token e = .value b w' → R w w')
    (hbegin : ∀ {β : Type} (what : Wait S β) (w : World S), R w (w.begin host what).1)
    (hdeliver : ∀ {β : Type} (pending : World.Pending β) (w : World S), R w (w.deliver pending))
    (hs : s.advance host token w = some (w', s')) : R w w' :=
  relates_of_advance hrefl htrans (fun _ _ _ _ _ h => hperform h)
    (fun _ _ what _ w => hbegin what w) hdeliver (within_anything s) hs

end Strand
end Routine
end TxWorkload
