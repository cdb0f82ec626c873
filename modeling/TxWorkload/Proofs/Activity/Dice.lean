import TxWorkload.Proofs.Activity.Bystander
import TxWorkload.Proofs.Routine.Drawing

/-!
# Dice — the sizes of bursts, and draws that go on

The generation draws only what can be drawn, and marks no size of a burst outside the range of the
settings. Both are read off its tree; that a size lies in the range is known because the mark
follows the draw.
-/

namespace TxWorkload
namespace Activity

open Routine
open Routine (Effect Host Licence Strand World)

/-- The size of the burst that a mark tells of, if it does. -/
def Milestone.size? : Milestone → Option UInt64
  | .rolled size => size
  | _ => none

theorem Milestone.size?_eq_some {m : Milestone} {size : UInt64} :
    m.size? = some size ↔ m = .rolled (some size) := by
  cases m <;> simp [size?]

/-- What a mark has to tell: the size of a burst, if there is one, lies in the range of the
settings. -/
def Milestone.Sized (b : Config.Bursts) (m : Milestone) : Prop :=
  ∀ size, m.size? = some size → b.least ≤ size ∧ size ≤ b.most

/-- Draws that never give up, and marks with sizes from the range. -/
def soundEffect (b : Config.Bursts) : {β : Type} → Effect activities β → Prop
  | _, .mark m => m.Sized b
  | _, .draw d => d.Steady
  | _, _ => True

/-- The licence to draw what can be drawn, and to mark sizes from the range. -/
def sound (b : Config.Bursts) : Licence activities where
  effect := soundEffect b
  wait _ _ _ := True
  loops := True

variable {b : Config.Bursts}

/-! ## Steps -/

/-- All marks of a world tell what they have to. -/
def Sized (b : Config.Bursts) (w : World activities) : Prop :=
  ∀ m ∈ w.marks, m.Sized b

theorem sized_perform {β : Type} {e : Effect activities β} (he : soundEffect b e)
    {host : Host activities} {token : Bool} {w w' : World activities} {x : β}
    (h : w.perform host token e = .value x w') (hw : Sized b w) : Sized b w' := by
  cases e with
  | mark m =>
      cases h
      intro m' hm'
      rcases List.mem_cons.1 hm' with rfl | hm'
      · exact he
      · exact hw m' hm'
  | draw d =>
      simp only [World.perform] at h
      split at h
      · cases h
        exact hw
      · cases h
      · cases h
  | access a => cases h; exact hw
  | log level text => cases h; exact hw
  | isCancelled => cases h; exact hw
  | checkpoint => cases h; exact hw
  | cancel => cases h; exact hw
  | clock => cases h; exact hw
  | uptime => cases h; exact hw

variable {α : Type} {host : Host activities} {token : Bool} {w w' : World activities}
  {s s' : Strand activities α}

theorem sized_advance (h : s.Conforms (sound b)) (hs : s.advance host token w = some (w', s'))
    (hw : Sized b w) : Sized b w' := by
  refine Strand.preserves_of_advance (P := Sized b) ?_ ?_ ?_ h hs hw
  · intro _ e he _ _ _ hperform hw
    exact sized_perform he hperform hw
  · intro _ what w hw
    unfold Sized
    rwa [w.marks_begin host what]
  · intro _ pending w hw
    unfold Sized
    rwa [w.marks_deliver pending]

theorem ne_aborted_advance (h : s.Conforms (sound b))
    (hs : s.advance host token w = some (w', s')) (cause : Abort) : s' ≠ .aborted cause :=
  Strand.ne_aborted_of_advance (fun d hd => Random.Draw.Steady.ne_abort (d := d) hd) h hs cause

/-! ## Everything but rolls -/

theorem reports_sound : Reports (sound b) where
  load := fun _ => trivial
  log := fun _ _ => trivial
  clock := trivial
  uptime := trivial

theorem launches_sound (g : Transaction.Generator) : Launches (sound b) g where
  total := trivial
  successful := trivial
  failed := trivial
  log := fun _ _ => trivial
  submitting := nofun
  submitted := fun _ => nofun
  checkpoint := trivial
  ask := fun _ => trivial
  isCancelled := trivial
  burstEnded := fun _ => nofun
  generate := g.steady_generate
  timer := fun _ => trivial
  loops := trivial

theorem awaits_sound : Awaits (sound b) where
  polls :=
    { raise := fun _ => trivial
      add := fun _ => trivial
      polled := fun _ => nofun
      ask := fun _ _ => trivial }
  log := fun _ _ => trivial
  isCancelled := trivial
  checkpoint := trivial
  timer := fun _ => trivial
  loops := trivial

/-! ## Rolls -/

/-- What is rolled is no burst, or a burst of a size from the range. -/
theorem Burst.yields_roll (b : Config.Bursts) :
    (roll b).Yields fun size => Milestone.Sized b (.rolled size) := by
  unfold roll
  refine (Random.Draw.yields_trivial _).bind ?_
  intro happens _
  cases happens with
  | true =>
      exact (Random.yields_pick b.least b.most).bind fun size hsize =>
        Random.Draw.yields_pure fun _ h => by cases h; exact hsize
  | false => exact Random.Draw.yields_pure nofun

namespace Plan

variable {p : Plan}

theorem conforms_burst (hfit : p.Fit) (hb : ∀ b', p.bursts = some b' → b' = b) (sent : Nat) :
    (p.burst sent).Conforms (sound b) := by
  unfold burst
  cases hbursts : p.bursts with
  | none => exact trivial
  | some b' =>
      obtain rfl := hb b' hbursts
      dsimp only
      split
      · refine conforms_draw (Burst.yields_roll b') (hfit b' hbursts) fun size hsize => ?_
        refine conforms_bind ⟨hsize, fun _ _ => trivial⟩ fun _ => ?_
        cases size with
        | none => exact trivial
        | some size =>
            have hrun := (launches_sound (b := b') p.generator).within_burstRun b'
              p.network.endpoints size.toNat
            exact conforms_bind (conforms_of_within hrun) fun _ => trivial
      · exact trivial

theorem conforms_turn (hfit : p.Fit) (hb : ∀ b', p.bursts = some b' → b' = b) (s : Progress) :
    (p.turn s).Conforms (sound b) := by
  have hlaunches : Launches (sound b) p.generator := launches_sound p.generator
  refine conforms_bind (conforms_of_within hlaunches.within_isCancelled) ?_
  intro token
  cases token with
  | true => exact trivial
  | false =>
      refine conforms_bind ⟨p.generator.steady_generate, fun _ _ => trivial⟩ fun drawn => ?_
      refine conforms_bind (conforms_of_within (within_submit hlaunches.toSubmits _ drawn.1 _)) ?_
      intro _
      refine conforms_bind (conforms_burst hfit hb _) ?_
      intro _
      refine conforms_bind (conforms_of_within (reports_sound.within_statistics p _)) ?_
      intro lastStats
      refine conforms_bind ⟨steady_pause _, fun _ _ => trivial⟩ fun delay => ?_
      refine conforms_bind ⟨nofun, fun _ _ => trivial⟩ fun _ => ?_
      refine conforms_bind (conforms_of_within (hlaunches.within_sleep delay)) ?_
      intro token
      cases token with
      | true => exact trivial
      | false => exact trivial

theorem conforms_run (hfit : p.Fit) (hb : ∀ b', p.bursts = some b' → b' = b) :
    p.run.Conforms (sound b) := by
  refine conforms_bind (conforms_of_within (p.within_awaitReady awaits_sound)) ?_
  intro ready
  cases ready with
  | false => exact trivial
  | true =>
      exact conforms_bind ⟨trivial, fun _ _ => trivial⟩ fun _ =>
        conforms_iterate trivial (conforms_turn hfit hb)

end Plan
end Activity
end TxWorkload
