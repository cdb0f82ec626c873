import TxWorkload.Proofs.Activity.Watermark
import TxWorkload.Proofs.Workload.Balance

/-!
# Watermark — the blocks of a whole run

The generation polls the network until it is ready, and the watch polls it all the time, so both
raise the same watermark. Each of them keeps the ledger of heights at every step, in any
interleaving. When a run has ended nobody is in debt any more: the watermark is the greatest height
of all polls that ended well, in this run and in those before it.
-/

namespace TxWorkload
namespace Workload

open Activity (Debt Ledger Rises heights highest observing)
open Routine (Host Strand World atRest)
open Run (Moves Reaches)

/-! ## Runs that carry the watermark -/

/-- The counters after some runs one after the other, and the heights of their polls. -/
inductive Seen (w : Workload) : Stats.Counters → List UInt64 → Prop
  | fresh : Seen w {} []
  | after {c : Stats.Counters} {earlier : List UInt64} (h : Seen w c earlier)
      (host : Host activities) (world : World activities) {x : Run} {s : Stats.Snapshot}
      (hx : Reaches w host (w.startWith c world) x) (hs : x.result? = some s) :
      Seen w x.world.counters (heights x.world ++ earlier)

/-! ## The invariant -/

/-- Two strands share a world and keep the ledger, each with debts of its own. -/
def Shared {α β : Type} (earlier : List UInt64) (world : World activities)
    (strand : Strand activities α) (other : Strand activities β) : Prop :=
  ∃ debt owed, strand.Obeys observing debt ∧ other.Obeys observing owed ∧
    Ledger earlier world debt owed

/-- What holds of the ledger in every phase of a run. -/
def Observed (earlier : List UInt64) : Run → Prop
  | .opening world banner =>
      ∃ debt, banner.Obeys observing debt ∧ Ledger earlier world debt .clear
  | .working world generation watch _ => Shared earlier world generation watch
  | .judging world line watch => Shared earlier world line watch
  | .stopping world watch => ∃ debt, watch.Obeys observing debt ∧ Ledger earlier world debt .clear
  | .closing world last => ∃ debt, last.Obeys observing debt ∧ Ledger earlier world debt .clear

section

variable {α β : Type} {earlier : List UInt64} {world world' : World activities}
  {strand strand' : Strand activities α} {other : Strand activities β} {host : Host activities}
  {token : Bool}

theorem Shared.symm (h : Shared earlier world strand other) :
    Shared earlier world other strand := by
  rcases h with ⟨debt, owed, hstrand, hother, hledger⟩
  exact ⟨owed, debt, hother, hstrand, hledger.symm⟩

theorem Shared.of_advance (h : Shared earlier world strand other)
    (hs : strand.advance host token world = some (world', strand')) :
    Shared earlier world' strand' other ∧ Rises world world' := by
  rcases h with ⟨debt, owed, hstrand, hother, hledger⟩
  rcases hledger.of_advance hstrand hs with ⟨debt', hstrand', hledger', hrises⟩
  exact ⟨⟨debt', owed, hstrand', hother, hledger'⟩, hrises⟩

/-- A strand that cannot go on leaves its world to the other one. -/
theorem Shared.of_none (h : Shared earlier world strand other)
    (hs : strand.advance host token world = none) :
    ∃ debt, other.Obeys observing debt ∧ Ledger earlier world debt .clear := by
  rcases h with ⟨debt, owed, hstrand, hother, hledger⟩
  have hrest : debt = .clear := Strand.rest_of_advance_eq_none hstrand hs
  subst hrest
  exact ⟨owed, hother, hledger.symm⟩

end

variable {w : Workload} {host : Host activities} {c : Stats.Counters} {earlier : List UInt64}
  {x y : Run}

theorem obeys_verdict (outcome : Except Error Nat) :
    (verdict outcome).Obeys observing (atRest observing) .clear := by
  cases outcome with
  | ok sent => exact Activity.obeys_log _ _
  | error cause => exact Activity.obeys_log _ _

theorem obeys_opening (w : Workload) : w.opening.Obeys observing (atRest observing) .clear :=
  Routine.obeys_after (Activity.obeys_log _ _) fun _ =>
    Routine.obeys_after (Activity.obeys_log _ _) fun _ => Activity.obeys_log _ _

theorem obeys_closing : closing.Obeys observing (atRest observing) .clear := by
  have hsnapshot : Activity.snapshot.Obeys observing (atRest observing) .clear :=
    ⟨trivial, fun _ => ⟨trivial, fun _ => ⟨trivial, fun _ => ⟨trivial, fun _ => ⟨trivial, fun _ =>
      ⟨trivial, fun _ => rfl⟩⟩⟩⟩⟩⟩
  refine Routine.obeys_after (Routine.obeys_after hsnapshot fun _ => Activity.obeys_log _ _) ?_
  intro _
  exact Routine.obeys_after (Activity.obeys_log _ _) fun _ => hsnapshot

/-- When the generation has ended, it is free of debt. -/
theorem rest_of_outcome {generation : Strand activities Nat} {outcome : Except Error Nat}
    {debt : Debt} (h : generation.Obeys observing debt)
    (houtcome : Run.outcome? generation = some outcome) : debt = .clear := by
  refine Strand.rest_of_isOver h ?_
  rcases Run.outcome_cases houtcome with ⟨sent, rfl, -⟩ | ⟨cause, rfl, -⟩
  · rfl
  · rfl

/-- Every move of a run keeps the ledger, and lets nothing decrease. -/
theorem observed_of_moves (h : Observed earlier x) (hm : Moves w host x y) :
    Observed earlier y ∧ Rises x.world y.world := by
  cases hm with
  | banner hs =>
      rcases h with ⟨debt, hbanner, hledger⟩
      rcases hledger.of_advance hbanner hs with ⟨debt', hbanner', hledger', hrises⟩
      exact ⟨⟨debt', hbanner', hledger'⟩, hrises⟩
  | spawn hs =>
      rcases h with ⟨debt, hbanner, hledger⟩
      have hrest : debt = .clear := Strand.rest_of_advance_eq_none hbanner hs
      subst hrest
      exact ⟨⟨.clear, .clear, w.plan.obeys_run, Activity.obeys_watch _ _, hledger⟩,
        Activity.rises_refl _⟩
  | generation hs => exact Shared.of_advance h hs
  | watch hs =>
      rcases Shared.of_advance h.symm hs with ⟨hshared, hrises⟩
      exact ⟨hshared.symm, hrises⟩
  | turn => exact ⟨h, Activity.rises_refl _⟩
  | judge houtcome =>
      rcases h with ⟨debt, owed, hgeneration, hwatch, hledger⟩
      obtain rfl := rest_of_outcome hgeneration houtcome
      exact ⟨⟨.clear, owed, obeys_verdict _, hwatch, hledger⟩, Activity.rises_refl _⟩
  | line hs => exact Shared.of_advance h hs
  | beside hs =>
      rcases Shared.of_advance h.symm hs with ⟨hshared, hrises⟩
      exact ⟨hshared.symm, hrises⟩
  | stop hs => exact ⟨Shared.of_none h hs, Activity.rises_refl _⟩
  | stopping hs =>
      rcases h with ⟨debt, hwatch, hledger⟩
      rcases hledger.of_advance hwatch hs with ⟨debt', hwatch', hledger', hrises⟩
      exact ⟨⟨debt', hwatch', hledger'⟩, hrises⟩
  | close hs =>
      rcases h with ⟨debt, hwatch, hledger⟩
      have hrest : debt = .clear := Strand.rest_of_advance_eq_none hwatch hs
      subst hrest
      exact ⟨⟨.clear, obeys_closing, hledger⟩, Activity.rises_refl _⟩
  | last hs =>
      rcases h with ⟨debt, hlast, hledger⟩
      rcases hledger.of_advance hlast hs with ⟨debt', hlast', hledger', hrises⟩
      exact ⟨⟨debt', hlast', hledger'⟩, hrises⟩
  | elapse hnow hcancelled =>
      cases x with
      | opening world banner =>
          rcases h with ⟨debt, hbanner, h⟩
          exact ⟨⟨debt, hbanner, h.elapse _ _⟩, Activity.rises_refl _⟩
      | working world generation watch turn =>
          rcases h with ⟨debt, owed, hgeneration, hwatch, h⟩
          exact ⟨⟨debt, owed, hgeneration, hwatch, h.elapse _ _⟩, Activity.rises_refl _⟩
      | judging world line watch =>
          rcases h with ⟨debt, owed, hline, hwatch, h⟩
          exact ⟨⟨debt, owed, hline, hwatch, h.elapse _ _⟩, Activity.rises_refl _⟩
      | stopping world watch =>
          rcases h with ⟨debt, hwatch, h⟩
          exact ⟨⟨debt, hwatch, h.elapse _ _⟩, Activity.rises_refl _⟩
      | closing world last =>
          rcases h with ⟨debt, hlast, h⟩
          exact ⟨⟨debt, hlast, h.elapse _ _⟩, Activity.rises_refl _⟩

theorem observed_of_reaches {world : World activities}
    (hbefore : c.lastBlock.toNat = highest earlier ∧ c.blocksObserved = c.lastBlock)
    (hx : Reaches w host (w.startWith c world) x) : Observed earlier x := by
  induction hx with
  | refl =>
      refine ⟨.clear, obeys_opening w, ?_, ?_⟩
      · calc c.lastBlock.toNat = highest earlier := hbefore.1
          _ = max (highest earlier) (max 0 0) := (Nat.max_zero _).symm
      · exact congrArg UInt64.toNat hbefore.2
  | tail _ hm ih => exact (observed_of_moves ih hm).1

theorem Observed.settled {s : Stats.Snapshot} (h : Observed earlier x)
    (hs : x.result? = some s) :
    x.world.counters.lastBlock.toNat = highest (heights x.world ++ earlier) ∧
      x.world.counters.blocksObserved = x.world.counters.lastBlock := by
  cases x with
  | closing world last =>
      rcases h with ⟨debt, hlast, hledger⟩
      have hover : last.isOver = true := by
        change last.result? = some s at hs
        unfold Strand.result? at hs
        split at hs
        · rfl
        · cases hs
      have hrest : debt = .clear := Strand.rest_of_isOver hlast hover
      subst hrest
      exact hledger.settled
  | opening world banner => cases hs
  | working world generation watch turn => cases hs
  | judging world line watch => cases hs
  | stopping world watch => cases hs

/-- Between runs the watermark is the greatest height so far, and as many blocks were observed. -/
theorem Seen.settled (h : w.Seen c earlier) :
    c.lastBlock.toNat = highest earlier ∧ c.blocksObserved = c.lastBlock := by
  induction h with
  | fresh => exact ⟨rfl, rfl⟩
  | after _ host world hx hs ih => exact (observed_of_reaches ih hx).settled hs

/-- In every interleaving of every run, neither the watermark nor the blocks observed ever decrease.
When the run has ended, both are the greatest height of all polls that ended well so far, those of
the generation and of the watch together, or zero if there was none. -/
theorem watermark_is_highest (w : Workload) (c : Stats.Counters) (earlier : List UInt64)
    (hc : w.Seen c earlier) (host : Host activities) (world : World activities) :
    (∀ n, Reaches w host (w.startWith c world) (Run.run w host n (w.startWith c world))) ∧
    ∀ x, Reaches w host (w.startWith c world) x →
      (∀ y, Moves w host x y →
        x.world.counters.lastBlock ≤ y.world.counters.lastBlock ∧
        x.world.counters.blocksObserved ≤ y.world.counters.blocksObserved) ∧
      ∀ s, x.result? = some s →
        x.world.counters.lastBlock.toNat = highest (heights x.world ++ earlier) ∧
        x.world.counters.blocksObserved = x.world.counters.lastBlock := by
  refine ⟨fun n => Run.reaches_run w host n _, fun x hx => ?_⟩
  have hobserved := observed_of_reaches hc.settled hx
  refine ⟨fun y hm => ?_, fun s hs => hobserved.settled hs⟩
  exact (observed_of_moves hobserved hm).2

/-- Two runs of the default workload with two polls each. The heights go down in the first run and
up in the second one, which starts below the watermark of the first. -/
theorem watermark_is_highest_twice :
    let w : Workload := ⟨{}, .development, by decide⟩
    let host : String → String → Host activities := fun first later =>
      { transport := fun past call =>
          if call.method = "eth_sendTransaction" then
            { answer := some { result := some (.text "0x2a") }, cancels := true }
          else if call.method = "eth_blockNumber" then
            { answer := some { result := some (.text
                (if past.all fun c => c.method ≠ "eth_blockNumber" then first else later)) } }
          else { answer := some {} } }
    let world : World activities := { supply := [0, 0, 9223372036854775808, 0, 0, 0] }
    let x := Run.run w (host "0x2a" "0x10") 64 (w.startWith {} world)
    let y := Run.run w (host "0x10" "0x2b") 64 (w.startWith x.world.counters world)
    w.Seen x.world.counters [16, 42] ∧ y.result?.isSome = true ∧
      y.world.counters.lastBlock.toNat = highest [43, 16, 16, 42] ∧
      y.world.counters.blocksObserved = 43 := by
  intro w host world x y
  have hx : x.result?.isSome = true := by decide +kernel
  have hy : y.result?.isSome = true := by decide +kernel
  rcases Option.isSome_iff_exists.1 hx with ⟨s, hs⟩
  rcases Option.isSome_iff_exists.1 hy with ⟨s', hs'⟩
  have hfirst : heights x.world = [16, 42] := by decide +kernel
  have hsecond : heights y.world = [43, 16] := by decide +kernel
  have hseen : w.Seen x.world.counters [16, 42] := by
    have hafter := Seen.after .fresh (host "0x2a" "0x10") world (Run.reaches_run w _ 64 _) hs
    rwa [hfirst] at hafter
  rcases watermark_is_highest w x.world.counters [16, 42] hseen (host "0x10" "0x2b") world with
    ⟨hruns, hhighest⟩
  rcases (hhighest y (hruns 64)).2 s' hs' with ⟨hlast, hblocks⟩
  rw [hsecond] at hlast
  refine ⟨hseen, hy, hlast, ?_⟩
  rw [hblocks]
  exact UInt64.toNat_inj.1 hlast

end Workload
end TxWorkload
