import TxWorkload.Proofs.Activity.Bystander
import TxWorkload.Proofs.Routine.Feeding

/-!
# Feeding — the words that the tasks of a run draw

The watch draws no words. The generation draws transactions, rolls for bursts and pauses. A pause
takes one word, so only the other two need a stream that serves them.
-/

namespace TxWorkload
namespace Activity

open Routine
open Routine (Effect)
open TxWorkload.Random (excerpt)
open TxWorkload.Random.Draw (Served)

variable {σ : Nat → UInt64} {α β : Type}

/-! ## Bystanders -/

theorem fed_of_bystands {f : Freedom} (hf : ¬ f.draws) {e : Effect activities β}
    (he : bystands f e) : Fed σ e := by
  cases e with
  | draw d => exact absurd he.1 hf
  | access a => exact trivial
  | log level text => exact trivial
  | mark m => exact trivial
  | isCancelled => exact trivial
  | checkpoint => exact trivial
  | cancel => exact trivial
  | clock => exact trivial
  | uptime => exact trivial

/-- A bystander that draws no words needs none. -/
theorem within_fed {p : Activity α} (hp : p.Within (bystander { unraced := True, loops := True })) :
    p.Within (fed σ) :=
  within_mono hp (fun _ he => fed_of_bystands id he) (fun _ _ _ _ => trivial) id

theorem submits_fed : Submits (fed σ : Licence activities) where
  total := trivial
  successful := trivial
  failed := trivial
  log := fun _ _ => trivial
  submitting := trivial
  submitted := fun _ => trivial
  checkpoint := trivial
  ask := fun _ => trivial

/-! ## The generation -/

/-- Whether a stream serves the transactions and the rolls of a generation. -/
structure Plan.Fed (σ : Nat → UInt64) (p : Plan) : Prop where
  generate : Served σ p.generator.generate
  roll : ∀ b, p.bursts = some b → Served σ (Burst.roll b)

namespace Plan

variable {p : Plan}

theorem served_pause (base : Duration) : Served σ (pause base) where
  steady := steady_pause base
  ends := fun start => ⟨1, fun hdry => by cases hdry⟩

theorem generates_fed (hp : p.Fed σ) : Generates (fed σ) p where
  toSubmits := submits_fed
  load := fun _ => trivial
  isCancelled := trivial
  clock := trivial
  uptime := trivial
  rolled := fun _ => trivial
  burstEnded := fun _ => trivial
  paced := fun _ => trivial
  generate := hp.generate
  roll := hp.roll
  pause := served_pause _
  timer := fun _ => trivial
  loops := trivial

/-- All draws of the generation are served. -/
theorem within_run_fed (hp : p.Fed σ) : p.run.Within (fed σ) := by
  refine within_bind (within_fed (p.within_awaitReady (awaits_bystander trivial))) ?_
  intro ready
  cases ready with
  | false => exact trivial
  | true =>
      exact within_bind (within_fed within_clock) fun _ =>
        within_iterate trivial fun _ => (generates_fed hp).within_turn _

end Plan
end Activity
end TxWorkload
