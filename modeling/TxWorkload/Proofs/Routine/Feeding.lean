import TxWorkload.Proofs.Random.Stream
import TxWorkload.Proofs.Routine.Conduct
import TxWorkload.Proofs.Routine.Record

/-!
# Feeding — routines that are given more words

Words that are added behind those that are left change nothing, unless a routine runs out of words
without them. If its words come from a stream that serves all its draws, it goes on once it has
enough of them, and those that are left are still words of the stream.
-/

namespace TxWorkload
namespace Routine

open TxWorkload.Random (excerpt)
open TxWorkload.Random.Draw (Served)

variable {S : Signature} {α β : Type} {σ : Nat → UInt64} {host : Host S} {token : Bool}

/-! ## Worlds -/

namespace World

/-- A world with more words behind those that are left. -/
def feed (w : World S) (more : Random.Supply) : World S :=
  { w with supply := w.supply ++ more }

theorem feed_feed (w : World S) (u v : Random.Supply) : (w.feed u).feed v = w.feed (u ++ v) := by
  simp only [feed, List.append_assoc]

theorem begin_feed (w : World S) (more : Random.Supply) (what : Wait S β) :
    (w.feed more).begin host what = ((w.begin host what).1.feed more, (w.begin host what).2) := by
  cases what <;> rfl

theorem deliver_feed (w : World S) (more : Random.Supply) (pending : Pending β) :
    (w.feed more).deliver pending = (w.deliver pending).feed more := by
  unfold deliver
  split <;> rfl

end World

/-! ## Effects -/

/-- Whether the draw of an effect, if it is one, is served by a stream. -/
def Fed (σ : Nat → UInt64) : {β : Type} → Effect S β → Prop
  | _, .draw d => d.Served σ
  | _, _ => True

/-- All draws are served by a stream. -/
def fed (σ : Nat → UInt64) : Licence S where
  effect := Fed σ
  wait _ _ _ := True
  loops := True

namespace World

variable {w w' : World S} {e : Effect S β} {b : β}

theorem perform_feed (he : Fed σ e) (h : w.perform host token e = .value b w')
    (more : Random.Supply) :
    (w.feed more).perform host token e = .value b (w'.feed more) := by
  cases e with
  | draw d =>
      simp only [perform] at h ⊢
      split at h
      · rename_i a r hdraw
        cases h
        -- The words that the draw takes stand in front of the others in either supply.
        rcases Random.Draw.Steady.of_value he.steady hdraw with ⟨u, hsupply, hu⟩
        have hfed : (w.feed more).supply = u ++ (r ++ more) := by
          rw [feed, hsupply, List.append_assoc]
        rw [hfed, hu]
        rfl
      · cases h
      · cases h
  | access a => cases h; rfl
  | log level text => cases h; rfl
  | mark m => cases h; rfl
  | isCancelled => cases h; rfl
  | checkpoint => cases h; rfl
  | cancel => cases h; rfl
  | clock => cases h; rfl
  | uptime => cases h; rfl

theorem perform_ne_aborted_of_fed (he : Fed σ e) (cause : Abort) :
    w.perform host token e ≠ .aborted cause := by
  intro h
  rcases draw_of_perform_aborted h with ⟨d, rfl, habort⟩
  exact Random.Draw.Steady.ne_abort he.steady _ _ habort

/-- Whether the words that are left are words of a stream, up to a place in it. -/
def Stocked (σ : Nat → UInt64) (stop : Nat) (w : World S) : Prop :=
  ∃ start n, start + n = stop ∧ w.supply = excerpt σ start n

variable {stop : Nat}

theorem stocked_feed (hw : w.Stocked σ stop) (m : Nat) :
    (w.feed (excerpt σ stop m)).Stocked σ (stop + m) := by
  rcases hw with ⟨start, n, rfl, hsupply⟩
  refine ⟨start, n + m, (Nat.add_assoc _ _ _).symm, ?_⟩
  rw [feed, hsupply, Random.excerpt_add]

theorem stocked_perform (he : Fed σ e) (h : w.perform host token e = .value b w')
    (hw : w.Stocked σ stop) : w'.Stocked σ stop := by
  rcases hw with ⟨start, n, rfl, hsupply⟩
  cases e with
  | draw d =>
      simp only [perform] at h
      split at h
      · rename_i a r hdraw
        cases h
        rcases Random.Draw.Steady.of_value he.steady hdraw with ⟨u, hleft, -⟩
        exact Random.exists_excerpt (hsupply.symm.trans hleft)
      · cases h
      · cases h
  | access a => cases h; exact ⟨start, n, rfl, hsupply⟩
  | log level text => cases h; exact ⟨start, n, rfl, hsupply⟩
  | mark m => cases h; exact ⟨start, n, rfl, hsupply⟩
  | isCancelled => cases h; exact ⟨start, n, rfl, hsupply⟩
  | checkpoint => cases h; exact ⟨start, n, rfl, hsupply⟩
  | cancel => cases h; exact ⟨start, n, rfl, hsupply⟩
  | clock => cases h; exact ⟨start, n, rfl, hsupply⟩
  | uptime => cases h; exact ⟨start, n, rfl, hsupply⟩

/-- An effect has a value once there are enough words of the stream. -/
theorem exists_enough (host : Host S) (token : Bool) (he : Fed σ e) (hw : w.Stocked σ stop) :
    ∃ m, ∀ more, (w.feed (excerpt σ stop m ++ more)).perform host token e ≠ .starved := by
  by_cases hdraw : ∃ d, e = .draw d
  · rcases hdraw with ⟨d, rfl⟩
    rcases hw with ⟨start, n, rfl, hw⟩
    rcases he.exists_enough start n with ⟨m, hm⟩
    refine ⟨m, ?_⟩
    intro more h
    rcases draw_of_perform_starved h with ⟨d', hd, hdry⟩
    cases hd
    rw [feed, hw] at hdry
    exact hm more hdry
  · refine ⟨0, ?_⟩
    intro more h
    rcases draw_of_perform_starved h with ⟨d, hd, -⟩
    exact hdraw ⟨d, hd⟩

end World

/-! ## Strands -/

namespace Strand

/-- Whether a strand has run out of words. -/
def isStarved : Strand S α → Bool
  | .starved => true
  | _ => false

variable {w w' : World S} {s s' : Strand S α}

/-- More words change nothing for a strand that does not run out of them. -/
theorem advance_feed (h : s.Within (fed σ))
    (hs : ∀ r, s.advance host token w = some r → r.2.isStarved = false) (more : Random.Supply) :
    s.advance host token (w.feed more) =
      (s.advance host token w).map fun r => (r.1.feed more, r.2) := by
  cases s with
  | active p =>
      cases p with
      | done a => rfl
      | perform e next =>
          simp only [advance] at hs ⊢
          cases he : w.perform host token e with
          | value b w' =>
              -- A draw that has its words takes the same ones from the longer supply.
              rw [World.perform_feed h.1 he more]
              rfl
          | starved =>
              rw [he] at hs
              cases hs _ rfl
          | aborted cause => exact absurd he (World.perform_ne_aborted_of_fed h.1 cause)
      | wait what next =>
          simp only [advance, World.begin_feed, World.deliver_feed]
          change ite ((w.begin host what).1.hasEnded (w.begin host what).2 = true) _ _ = _
          split <;> rfl
      | race what next =>
          simp only [advance, World.begin_feed, World.deliver_feed]
          change ite ((w.begin host what).1.hasEnded (w.begin host what).2 = true) _ _ = _
          split <;> rfl
      | loop s body next => rfl
  | blocked pending next =>
      simp only [advance, World.deliver_feed]
      change ite (w.hasEnded pending = true) _ _ = _
      split <;> rfl
  | contested pending next =>
      simp only [advance, World.deliver_feed]
      split
      · rfl
      · change ite (w.hasEnded pending = true) _ _ = _
        split <;> rfl
  | starved => rfl
  | aborted cause => rfl

/-- The words that are left after a step are still words of the stream. -/
theorem stocked_of_advance {stop : Nat} (h : s.Within (fed σ))
    (hs : s.advance host token w = some (w', s')) (hw : w.Stocked σ stop) : w'.Stocked σ stop :=
  relates_of_advance (R := fun w w' => w.Stocked σ stop → w'.Stocked σ stop) (fun _ => id)
    (fun h h' => h' ∘ h) (fun _ he _ _ _ h hw => World.stocked_perform he h hw)
    (fun _ _ what _ w hw => by rwa [World.Stocked, w.supply_begin host what])
    (fun pending w hw => by rwa [World.Stocked, w.supply_deliver pending]) h hs hw

/-- A strand does not run out of words in its next step if there are enough words of the
stream. -/
theorem exists_enough {stop : Nat} (host : Host S) (token : Bool) (h : s.Within (fed σ))
    (hw : w.Stocked σ stop) :
    ∃ m, ∀ more r, s.advance host token (w.feed (excerpt σ stop m ++ more)) = some r →
      r.2.isStarved = false := by
  cases s with
  | active p =>
      cases p with
      | perform e next =>
          rcases World.exists_enough host token h.1 hw with ⟨m, hm⟩
          refine ⟨m, ?_⟩
          rintro more ⟨w', s'⟩ hs
          cases advances_of_advance hs with
          | value _ => rfl
          | starve he => exact absurd he (hm more)
          | abort _ => rfl
      | done a => exact ⟨0, fun _ r hs => by cases hs⟩
      | wait what next =>
          refine ⟨0, ?_⟩
          rintro more ⟨w', s'⟩ hs
          cases advances_of_advance hs <;> rfl
      | race what next =>
          refine ⟨0, ?_⟩
          rintro more ⟨w', s'⟩ hs
          cases advances_of_advance hs <;> rfl
      | loop s body next => exact ⟨0, fun _ r hs => by cases hs; rfl⟩
  | blocked pending next =>
      refine ⟨0, ?_⟩
      rintro more ⟨w', s'⟩ hs
      cases advances_of_advance hs
      rfl
  | contested pending next =>
      refine ⟨0, ?_⟩
      rintro more ⟨w', s'⟩ hs
      cases advances_of_advance hs <;> rfl
  | starved => exact ⟨0, fun _ r hs => by cases hs⟩
  | aborted cause => exact ⟨0, fun _ r hs => by cases hs⟩

end Strand
end Routine
end TxWorkload
