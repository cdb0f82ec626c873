import TxWorkload.Activity.Generation
import TxWorkload.Proofs.Activity.Submission

/-!
# Generation — what a generation does once a node has answered

A turn looks whether the run is cancelled, draws and submits a transaction, may cast the dice for a
burst and send it, may write statistics, draws a pause and sleeps. Any licence that allows these
things allows the turns of the generation and of its bursts.
-/

namespace TxWorkload
namespace Activity

open Routine
open Routine (Licence Wait)

/-! ## Statistics -/

/-- Whether a licence allows to write statistics. -/
structure Reports (L : Licence activities) : Prop where
  load : ∀ c, L.effect (.access (.load c))
  log : ∀ level text, L.effect (.log level text)
  clock : L.effect .clock
  uptime : L.effect .uptime

namespace Reports

variable {L : Licence activities}

theorem within_snapshot (h : Reports L) : snapshot.Within L :=
  ⟨h.load _, fun _ => ⟨h.load _, fun _ => ⟨h.load _, fun _ => ⟨h.load _, fun _ => ⟨h.load _,
    fun _ => ⟨h.uptime, fun _ => trivial⟩⟩⟩⟩⟩⟩

theorem within_printStats (h : Reports L) : printStats.Within L :=
  within_bind h.within_snapshot fun _ => ⟨h.log _ _, fun _ => trivial⟩

theorem within_statistics (h : Reports L) (p : Plan) (lastStats : Nat) :
    (p.statistics lastStats).Within L := by
  refine within_bind ⟨h.clock, fun _ => trivial⟩ fun now => ?_
  split
  · exact within_bind h.within_printStats fun _ => ⟨h.clock, fun _ => trivial⟩
  · exact trivial

end Reports

/-! ## Bursts -/

/-- Whether a licence allows what a burst does. -/
structure Launches (L : Licence activities) (g : Transaction.Generator) : Prop
    extends Submits L where
  isCancelled : L.effect .isCancelled
  burstEnded : ∀ sent, L.effect (.mark (.burstEnded sent))
  generate : L.effect (.draw g.generate)
  timer : ∀ d, L.wait true (Wait.timer d : Wait activities Unit)
  loops : L.loops

namespace Launches

variable {L : Licence activities} {g : Transaction.Generator}

theorem within_isCancelled (h : Launches L g) : (Routine.isCancelled : Activity Bool).Within L :=
  ⟨h.isCancelled, fun _ => trivial⟩

theorem within_sleep (h : Launches L g) (d : Duration) :
    (sleepOrCancelled d : Activity Bool).Within L :=
  within_sleepOrCancelled h.checkpoint h.isCancelled (h.timer d)

theorem within_burstTurn (h : Launches L g) (b : Config.Bursts) (endpoints : List Endpoint)
    (size sent : Nat) : (Burst.turn b g endpoints size sent).Within L := by
  unfold Burst.turn
  split
  · refine within_bind h.within_isCancelled ?_
    intro token
    cases token with
    | true => exact trivial
    | false =>
        refine within_bind ⟨h.generate, fun _ => trivial⟩ fun drawn => ?_
        refine within_bind (within_submit h.toSubmits _ drawn.1 _) ?_
        intro _
        refine within_bind (h.within_sleep b.pause) ?_
        intro token
        cases token with
        | true => exact trivial
        | false => exact trivial
  · exact trivial

theorem within_burstRun (h : Launches L g) (b : Config.Bursts) (endpoints : List Endpoint)
    (size : Nat) : (Burst.run b g endpoints size).Within L := by
  refine within_bind ⟨h.log _ _, fun _ => trivial⟩ fun _ => ?_
  refine within_bind (within_iterate h.loops fun sent => h.within_burstTurn b _ size sent) ?_
  intro sent
  exact ⟨h.burstEnded sent, fun _ => trivial⟩

end Launches

/-! ## Generations -/

/-- Whether a licence allows what a generation does, apart from its checks of the network. -/
structure Generates (L : Licence activities) (p : Plan) : Prop
    extends Launches L p.generator, Reports L where
  rolled : ∀ size, L.effect (.mark (.rolled size))
  paced : ∀ pause, L.effect (.mark (.paced pause))
  roll : ∀ b, p.bursts = some b → L.effect (.draw (Burst.roll b))
  pause : L.effect (.draw (Plan.pause p.txInterval))

namespace Generates

variable {L : Licence activities} {p : Plan}

/-- A burst that may follow a transaction. -/
theorem within_burst (h : Generates L p) (sent : Nat) : (p.burst sent).Within L := by
  unfold Plan.burst
  cases hb : p.bursts with
  | none => exact trivial
  | some b =>
      dsimp only
      split
      · refine within_bind ⟨h.roll b hb, fun _ => trivial⟩ fun size => ?_
        refine within_bind ⟨h.rolled size, fun _ => trivial⟩ fun _ => ?_
        cases size with
        | none => exact trivial
        | some size => exact within_bind (h.within_burstRun b _ _) fun _ => trivial
      · exact trivial

/-! ## Turns -/

theorem within_turn (h : Generates L p) (s : Plan.Progress) : (p.turn s).Within L := by
  refine within_bind h.within_isCancelled ?_
  intro token
  cases token with
  | true => exact trivial
  | false =>
      refine within_bind ⟨h.generate, fun _ => trivial⟩ fun drawn => ?_
      refine within_bind (within_submit h.toSubmits _ drawn.1 _) ?_
      intro _
      refine within_bind (h.within_burst _) ?_
      intro _
      refine within_bind (h.toReports.within_statistics p _) ?_
      intro lastStats
      refine within_bind ⟨h.pause, fun _ => trivial⟩ fun delay => ?_
      refine within_bind ⟨h.paced delay, fun _ => trivial⟩ fun _ => ?_
      refine within_bind (h.within_sleep delay) ?_
      intro token
      cases token with
      | true => exact trivial
      | false => exact trivial

end Generates
end Activity
end TxWorkload
