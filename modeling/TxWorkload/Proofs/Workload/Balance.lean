import TxWorkload.Proofs.Activity.Accounting
import TxWorkload.Proofs.Workload.Interleaving

/-!
# Balance — the counters of submissions over whole runs

The counters are carried from one run to the next. In every interleaving of every run at most one
submission is on its way, and only that one may be booked as made without an outcome. When a run has
ended, its counters have grown by what was sent outside bursts and in them, and by what was
accepted.
-/

namespace TxWorkload
namespace Workload

open Activity (Books books bookkeeping bystander)
open Activity.Books (Settled Fair balanceOf)
open Routine (Host Strand World)
open Run (Moves Reaches outcome?)

/-! ## Runs that carry counters -/

/-- A run that is about to start with counters from before and a journal of its own. -/
def startWith (w : Workload) (c : Stats.Counters) (world : World activities) : Run :=
  w.start { world with counters := c, journal := [] }

/-- The counters after some runs one after the other, each in surroundings of its own. -/
inductive Carried (w : Workload) : Stats.Counters → Prop
  | fresh : Carried w {}
  | after {c : Stats.Counters} (h : Carried w c) (host : Host activities)
      (world : World activities) {x : Run} {s : Stats.Snapshot}
      (hx : Reaches w host (w.startWith c world) x) (hs : x.result? = some s) :
      Carried w x.world.counters

/-- The generation has told a number on the way from one run to another. -/
def Tells (w : Workload) (host : Host activities) (first x : Run) (sent : Nat) : Prop :=
  ∃ y, Reaches w host first y ∧ y.generated? = some sent ∧ Reaches w host y x

/-! ## The invariant -/

/-- What holds of the books in every phase of a run. -/
def Booked (w : Workload) (host : Host activities) (c : Stats.Counters) (first : Run) :
    Run → Prop
  | .opening world banner => (books world).Settled c 0 ∧ banner.Within (bystander .task)
  | .working world generation watch _ =>
      Fair c (books world) ∧ watch.Within (bystander .task) ∧
        generation.Keeps (bookkeeping host c) (fun sent w => (books w).Settled c sent) world
  | .judging world line watch =>
      line.Within (bystander .task) ∧ watch.Within (bystander .task) ∧
        ∃ sent, (books world).Settled c sent ∧ w.Tells host first (.judging world line watch) sent
  | .stopping world watch =>
      watch.Within (bystander .task) ∧
        ∃ sent, (books world).Settled c sent ∧ w.Tells host first (.stopping world watch) sent
  | .closing world last =>
      last.Within (bystander .task) ∧
        ∃ sent, (books world).Settled c sent ∧ w.Tells host first (.closing world last) sent

variable {w : Workload} {host : Host activities} {c : Stats.Counters} {first x y : Run}

theorem Tells.moves {sent : Nat} (h : w.Tells host first x sent) (hm : Moves w host x y) :
    w.Tells host first y sent := by
  rcases h with ⟨z, hz, hsent, hx⟩
  exact ⟨z, hz, hsent, hx.tail hm⟩

section

variable {L : Routine.Licence activities}

theorem within_verdict (hL : Activity.Reports L) (outcome : Except Error Nat) :
    (verdict outcome).Within L := by
  cases outcome with
  | ok sent => exact ⟨hL.log _ _, fun _ => trivial⟩
  | error cause => exact ⟨hL.log _ _, fun _ => trivial⟩

theorem within_opening (hL : Activity.Reports L) (w : Workload) : w.opening.Within L :=
  ⟨hL.log _ _, fun _ => ⟨hL.log _ _, fun _ => ⟨hL.log _ _, fun _ => trivial⟩⟩⟩

theorem within_closing (hL : Activity.Reports L) : closing.Within L :=
  Routine.within_bind hL.within_printStats fun _ => ⟨hL.log _ _, fun _ => hL.within_snapshot⟩

end

/-- The generation keeps the books at each of its steps, and leaves them settled. -/
theorem fair_of_advance {world world' : World activities}
    {generation generation' : Strand activities Nat} {Q : Nat → World activities → Prop}
    (hfair : Fair c (books world)) (hg : generation.Keeps (bookkeeping host c) Q world)
    (hs : generation.advance host world.cancelled world = some (world', generation')) :
    Fair c (books world') ∧ generation'.Keeps (bookkeeping host c) Q world' := by
  rcases Strand.keeps_of_advance (T := bookkeeping host c) hg hs with ⟨hguarantee, hkeeps⟩
  exact ⟨hguarantee hfair, hkeeps⟩

theorem settled_of_outcome {world : World activities} {generation : Strand activities Nat}
    {outcome : Except Error Nat}
    (hg : generation.Keeps (bookkeeping host c) (fun sent w => (books w).Settled c sent) world)
    (h : outcome? generation = some outcome) :
    ∃ sent, generation.result? = some sent ∧ (books world).Settled c sent := by
  rcases Run.outcome_cases h with ⟨sent, rfl, -⟩ | ⟨cause, rfl, -⟩
  · exact ⟨sent, rfl, hg world rfl⟩
  · exact hg.elim

/-- Every move of a run keeps the books. -/
theorem booked_of_moves (hfirst : Reaches w host first x) (h : w.Booked host c first x)
    (hm : Moves w host x y) : w.Booked host c first y := by
  cases hm with
  | banner hs =>
      rcases h with ⟨hsettled, hbanner⟩
      refine ⟨?_, Strand.within_of_advance hbanner hs⟩
      rwa [Activity.books_advance hbanner hs]
  | spawn hs =>
      rcases h with ⟨hsettled, -⟩
      exact ⟨hsettled.fair, Activity.within_watch (Activity.awaits_bystander trivial) _ _,
        Activity.Plan.keeps_run w.fit_plan hsettled⟩
  | generation hs =>
      rcases h with ⟨hfair, hwatch, hg⟩
      rcases fair_of_advance hfair hg hs with ⟨hfair', hg'⟩
      exact ⟨hfair', hwatch, hg'⟩
  | watch hs =>
      rcases h with ⟨hfair, hwatch, hg⟩
      have hbooks := Activity.books_advance hwatch hs
      refine ⟨?_, Strand.within_of_advance hwatch hs, Strand.keeps_of_rely hg hbooks⟩
      rwa [hbooks]
  | turn => exact h
  | judge houtcome =>
      rcases h with ⟨-, hwatch, hg⟩
      rcases settled_of_outcome hg houtcome with ⟨sent, hresult, hsettled⟩
      exact ⟨within_verdict Activity.reports_bystander _, hwatch, sent, hsettled, _, hfirst,
        hresult, .single (.judge houtcome)⟩
  | line hs =>
      rcases h with ⟨hline, hwatch, sent, hsettled, htells⟩
      refine ⟨Strand.within_of_advance hline hs, hwatch, sent, ?_, htells.moves (.line hs)⟩
      rwa [Activity.books_advance hline hs]
  | beside hs =>
      rcases h with ⟨hline, hwatch, sent, hsettled, htells⟩
      refine ⟨hline, Strand.within_of_advance hwatch hs, sent, ?_, htells.moves (.beside hs)⟩
      rwa [Activity.books_advance hwatch hs]
  | stop hs =>
      rcases h with ⟨-, hwatch, sent, hsettled, htells⟩
      exact ⟨hwatch, sent, hsettled, htells.moves (.stop hs)⟩
  | stopping hs =>
      rcases h with ⟨hwatch, sent, hsettled, htells⟩
      refine ⟨Strand.within_of_advance hwatch hs, sent, ?_, htells.moves (.stopping hs)⟩
      rwa [Activity.books_advance hwatch hs]
  | close hs =>
      rcases h with ⟨-, sent, hsettled, htells⟩
      exact ⟨within_closing Activity.reports_bystander, sent, hsettled, htells.moves (.close hs)⟩
  | last hs =>
      rcases h with ⟨hlast, sent, hsettled, htells⟩
      refine ⟨Strand.within_of_advance hlast hs, sent, ?_, htells.moves (.last hs)⟩
      rwa [Activity.books_advance hlast hs]
  | elapse hnow hcancelled =>
      have helapse : Moves w host x _ := .elapse hnow hcancelled
      cases x with
      | opening world banner => exact h
      | working world generation watch turn =>
          exact ⟨h.1, h.2.1, Strand.keeps_of_rely h.2.2 rfl⟩
      | judging world line watch =>
          rcases h with ⟨hline, hwatch, sent, hsettled, htells⟩
          exact ⟨hline, hwatch, sent, hsettled, htells.moves helapse⟩
      | stopping world watch =>
          rcases h with ⟨hwatch, sent, hsettled, htells⟩
          exact ⟨hwatch, sent, hsettled, htells.moves helapse⟩
      | closing world last =>
          rcases h with ⟨hlast, sent, hsettled, htells⟩
          exact ⟨hlast, sent, hsettled, htells.moves helapse⟩

theorem booked_of_reaches {world : World activities}
    (hx : Reaches w host (w.startWith c world) x) :
    w.Booked host c (w.startWith c world) x := by
  induction hx with
  | refl =>
      refine ⟨⟨rfl, rfl, ?_, ?_, ?_⟩, within_opening Activity.reports_bystander w⟩
      · exact (UInt64.add_zero _).symm
      · exact (UInt64.add_zero _).symm
      · exact (UInt64.add_zero _).symm
  | tail hx hm ih => exact booked_of_moves hx ih hm

theorem Booked.fair (h : w.Booked host c first x) : Fair c (books x.world) := by
  cases x with
  | opening world banner => exact h.1.fair
  | working world generation watch turn => exact h.1
  | judging world line watch =>
      rcases h with ⟨-, -, sent, hsettled, -⟩
      exact hsettled.fair
  | stopping world watch =>
      rcases h with ⟨-, sent, hsettled, -⟩
      exact hsettled.fair
  | closing world last =>
      rcases h with ⟨-, sent, hsettled, -⟩
      exact hsettled.fair

theorem Booked.settled {s : Stats.Snapshot} (h : w.Booked host c first x)
    (hs : x.result? = some s) :
    ∃ sent, (books x.world).Settled c sent ∧ w.Tells host first x sent := by
  cases x with
  | closing world last => exact h.2
  | opening world banner => cases hs
  | working world generation watch turn => cases hs
  | judging world line watch => cases hs
  | stopping world watch => cases hs

/-- Between runs nothing is booked as made without an outcome. -/
theorem Carried.balance (h : w.Carried c) : balanceOf c = 0 := by
  induction h with
  | fresh => rfl
  | after _ host world hx hs ih =>
      rcases (booked_of_reaches hx).settled hs with ⟨sent, hsettled, -⟩
      exact hsettled.balance.trans ih

end Workload
end TxWorkload
