import TxWorkload.Activity.Submission
import TxWorkload.Proofs.Routine.Conduct
import TxWorkload.Proofs.Routine.Record

/-!
# Submission — what a submission does

A submission counts, writes lines, marks its beginning and its end, and asks one endpoint after the
other, each time in a race against cancellation. Any licence that allows these things allows it.
-/

namespace TxWorkload
namespace Activity

open Routine
open Routine (Licence Wait)

/-- Whether a licence allows what comes of an offer. -/
structure Settles (L : Licence activities) : Prop where
  successful : L.effect (.access (.add .successful 1))
  failed : L.effect (.access (.add .failed 1))
  log : ∀ level text, L.effect (.log level text)
  checkpoint : L.effect .checkpoint

/-- Whether a licence allows what a submission does. -/
structure Submits (L : Licence activities) : Prop extends Settles L where
  total : L.effect (.access (.add .total 1))
  submitting : L.effect (.mark .submitting)
  submitted : ∀ hash, L.effect (.mark (.submitted hash))
  ask : ∀ call, L.wait true (Wait.reply call : Wait activities (Option Rpc.Response))

variable {L : Licence activities}

theorem within_ask_raced (hL : L.effect .checkpoint) {call : Rpc.Call}
    (hask : L.wait true (Wait.reply call : Wait activities (Option Rpc.Response))) :
    (untilCancelled (ask call)).Within L := by
  refine ⟨hL, ?_⟩
  intro token
  cases token with
  | true => exact trivial
  | false =>
      change ((await (.reply call) : Activity _).guarded).Within L
      rw [guarded_await]
      exact ⟨hask, fun _ => trivial⟩

/-- The endpoints are asked to take the transaction, and nothing else. -/
theorem within_offer (hL : Settles L) {t : Transaction} {endpoints : List Endpoint}
    (hask : ∀ endpoint ∈ endpoints, L.wait true
      (Wait.reply (submissionCall t endpoint) : Wait activities (Option Rpc.Response)))
    (label : String) : (offer t label endpoints).Within L := by
  have hfailed : ∀ level text, (do
      count .failed
      log level text
      return none : Activity (Option String)).Within L :=
    fun level text => ⟨hL.failed, fun _ => ⟨hL.log level text, fun _ => trivial⟩⟩
  induction endpoints with
  | nil => exact hfailed _ _
  | cons endpoint rest ih =>
      have hrest := ih fun endpoint h => hask endpoint (List.mem_cons_of_mem _ h)
      refine within_bind (within_ask_raced hL.checkpoint (hask _ List.mem_cons_self)) ?_
      intro answer
      rcases answer with _ | _ | response
      · exact hfailed _ _
      · exact hrest
      · dsimp only
        split
        · exact ⟨hL.successful, fun _ => ⟨hL.log _ _, fun _ => trivial⟩⟩
        · exact ⟨hL.log _ _, fun _ => hrest⟩

theorem within_submit (hL : Submits L) (endpoints : List Endpoint) (t : Transaction)
    (label : String) : (submit endpoints t label).Within L := by
  refine within_bind ⟨hL.submitting, fun _ => trivial⟩ fun _ => ?_
  have hcounted : (count .total).Within L := ⟨hL.total, fun _ => trivial⟩
  refine within_bind hcounted ?_
  intro _
  refine within_bind (within_offer hL.toSettles (fun _ _ => hL.ask _) label) ?_
  intro hash
  exact within_bind ⟨hL.submitted hash, fun _ => trivial⟩ fun _ => trivial

end Activity
end TxWorkload
