import TxWorkload.Proofs.Workload.Feeding
import TxWorkload.Proofs.Workload.Shutdown

/-!
# Termination — a run comes to a stop

Up to any moment the two tasks of a run take finitely many steps, in whatever order the scheduler
gives them, and time passes finitely often between the steps. So a run whose words come from a
stream passes the moment, or comes to its end, or waits for what never comes; and a beginning of the
stream is enough for that.
-/

namespace TxWorkload
namespace Workload

open TxWorkload.Random (excerpt)
open Routine (Host Strand World timely)
open Routine.Strand (Follows)

namespace Run

variable {w : Workload} {host : Host activities} {bound : Nat} {x y : Run}

/-! ## Finitely many steps -/

/-- One step of the two tasks within a bound of time, after some more words were added. -/
def Descends (w : Workload) (host : Host activities) (bound : Nat) (y x : Run) : Prop :=
  y.world.now ≤ bound ∧ ¬ y.Late ∧ ∃ more, (x.feed more).step w host = some y

/-- How much time is left, and whether the cancellation is still ahead. -/
def remaining (bound : Nat) (world : World activities) : Nat :=
  bound - world.now + if world.cancelled then 0 else 1

/-- Whenever time passes, less of it remains, or the run is cancelled. -/
theorem remaining_passTo {world : World activities} {generation : Strand activities Nat}
    {watch : Strand activities Unit} {moment : Nat}
    (hg : generation.advance host world.cancelled world = none)
    (hw : watch.advance host world.cancelled world = none)
    (hm : world.nextMoment host ((generation.due?.map Prod.fst).toList ++
      (watch.due?.map Prod.fst).toList) = some moment) (hmoment : moment ≤ bound) :
    remaining bound (world.passTo host moment) < remaining bound world := by
  have hflag : (if (world.passTo host moment).cancelled then 0 else 1) ≤
      if world.cancelled then 0 else 1 := by
    cases hcancelled : world.cancelled with
    | true => exact Nat.le_of_eq (by rw [world.cancelled_passTo host moment hcancelled])
    | false => split <;> decide
  -- Time that passes to a wait is time that no longer remains.
  have hlater : world.now < moment → remaining bound (world.passTo host moment) <
      remaining bound world := fun hlt =>
    Nat.add_lt_add_of_lt_of_le (Nat.sub_lt_sub_left (Nat.lt_of_lt_of_le hlt hmoment) hlt) hflag
  rcases World.nextMoment_spec hm with hmem | ⟨hactive, t, hcancel, rfl⟩
  · rcases List.mem_append.1 hmem with hmem | hmem
    · exact hlater (Strand.lt_due_of_advance hg hmem)
    · exact hlater (Strand.lt_due_of_advance hw hmem)
  · -- The moment may be this one, but then it is the one of the cancellation.
    have hcancelled : (world.passTo host (max world.now t)).cancelled = true := by
      have hreached : decide (t ≤ max world.now t) = true :=
        decide_eq_true (Nat.le_max_right _ _)
      simp only [World.passTo, hcancel, hreached, Bool.or_true]
    unfold remaining
    rw [hcancelled, hactive]
    exact Nat.lt_succ_of_le (Nat.sub_le_sub_left (Nat.le_max_left _ _) _)

/-- If each of the two tasks takes finitely many steps, both of them do together. -/
theorem acc_descends {a : Strand activities Nat × World activities}
    (ha : Acc (Follows (timely host bound)) a) {b : Strand activities Unit × World activities}
    (hb : Acc (Follows (timely host bound)) b) {world : World activities} {turn : Turn}
    (haw : World.Elapses bound a.2 world) (hbw : World.Elapses bound b.2 world) :
    Acc (Descends w host bound) (.working world a.1 b.1 turn) := by
  -- First the generation, then the watch, then the time: a step of an earlier one frees the later.
  induction ha generalizing b world turn with
  | intro a hacca iha =>
      induction hb generalizing world turn with
      | intro b haccb ihb =>
          induction hn : remaining bound world using Nat.strongRecOn generalizing world turn with
          | _ n ih =>
              subst hn
              refine ⟨_, fun y hy => ?_⟩
              rcases hy with ⟨hnow, hearly, more, hs⟩
              have hfed : World.Elapses bound world (world.feed more) :=
                ⟨Nat.le_refl _, id, id⟩
              change step w host (.working (world.feed more) a.1 b.1 turn) = some y at hs
              simp only [step] at hs
              split at hs
              · cases hs
                exact absurd trivial hearly
              · split at hs
                · cases hs
                · cases proceeds_of_proceed hs with
                  | @generation world' generation' t' hgo _ _ =>
                      -- The watch sees the step of the generation as something that others do.
                      have hgone := (Strand.elapses_of_advance bound hgo).1
                      exact iha (generation', world') ⟨_, haw.trans hfed, hgo⟩ ⟨b, haccb⟩
                        (.refl world') ((hbw.trans hfed).trans hgone)
                  | @watch world' watch' t' hgo _ =>
                      have hgone := (Strand.elapses_of_advance bound hgo).1
                      exact ihb (watch', world') ⟨_, hbw.trans hfed, hgo⟩
                        ((haw.trans hfed).trans hgone) (.refl world')
                  | @pass moment t' hg hw hm =>
                      -- Neither task goes on, so it is time that has to become less.
                      have hpassed := hfed.trans
                        ⟨le_of_pass hg hw hm, fun _ => hnow, World.cancelled_passTo _ host moment⟩
                      have hless : remaining bound ((world.feed more).passTo host moment) <
                          remaining bound (world.feed more) := remaining_passTo hg hw hm hnow
                      exact ih _ hless (haw.trans hpassed) (hbw.trans hpassed) rfl

/-! ## Enough words -/

/-- Whether a run is beyond a bound of time, past its generation, or at a stop for another reason
than that it has run out of words. -/
def Settled (w : Workload) (host : Host activities) (bound : Nat) (x : Run) : Prop :=
  bound < x.world.now ∨ x.Late ∨ x.step w host = none ∧ x.isStarved = false

theorem world_feed (x : Run) (more : Random.Supply) : (x.feed more).world = x.world.feed more := by
  cases x <;> rfl

theorem feed_feed (x : Run) (u v : Random.Supply) : (x.feed u).feed v = x.feed (u ++ v) := by
  cases x <;> simp only [feed, withWorld, world, World.feed_feed]

theorem late_feed (more : Random.Supply) (hx : x.Late) : (x.feed more).Late := by
  cases x with
  | opening world banner => exact hx
  | working world generation watch turn => exact hx
  | judging world line watch => exact trivial
  | stopping world watch => exact trivial
  | closing world last => exact trivial

theorem isStarved_feed (x : Run) (more : Random.Supply) :
    (x.feed more).isStarved = x.isStarved := by
  cases x <;> rfl

theorem Nourished.not_starved {σ : Nat → UInt64} {stop : Nat} (hx : x.Nourished σ stop) :
    x.isStarved = false := by
  cases hx with
  | working hg hw hstarved hstock => exact isStarved_eq_false.2 hstarved

/-- Some words of a stream are enough for a run to settle, whatever words come behind them. -/
theorem exists_settled {σ : Nat → UInt64} {stop : Nat} (hacc : Acc (Descends w host bound) x)
    (hx : x.Nourished σ stop) :
    ∃ m, ∀ more, ∃ n, Settled w host bound (run w host n (x.feed (excerpt σ stop m ++ more))) := by
  induction hacc generalizing stop with
  | intro x _ ih =>
      -- The words for one step come first, and the words for all later ones behind them.
      rcases hx.exists_enough w host with ⟨m, hm⟩
      have hfed := hx.feed m
      have hok : ∀ y, (x.feed (excerpt σ stop m)).step w host = some y → y.isStarved = false := by
        intro y hy
        exact hm [] y (by rwa [List.append_nil])
      have hstep : ∀ more, (x.feed (excerpt σ stop m ++ more)).step w host =
          ((x.feed (excerpt σ stop m)).step w host).map fun y => y.feed more := by
        intro more
        rw [← feed_feed]
        exact hfed.step_feed hok more
      cases hs : (x.feed (excerpt σ stop m)).step w host with
      | none =>
          refine ⟨m, fun more => ⟨0, .inr (.inr ⟨?_, ?_⟩)⟩⟩
          · rw [run, hstep, hs]
            rfl
          · rw [run, isStarved_feed]
            exact hx.not_starved
      | some y =>
          have hone : ∀ more n, run w host (n + 1) (x.feed (excerpt σ stop m ++ more)) =
              run w host n (y.feed more) := by
            intro more n
            exact run_one (by rw [hstep, hs]; rfl) n
          -- The step settles the run, or the run goes on below in the order of its steps.
          by_cases hbound : bound < y.world.now
          · refine ⟨m, fun more => ⟨1, .inl ?_⟩⟩
            rw [hone more 0, run, world_feed]
            exact hbound
          by_cases hlate : y.Late
          · refine ⟨m, fun more => ⟨1, .inr (.inl ?_)⟩⟩
            rw [hone more 0]
            exact late_feed more hlate
          · have hnext := (hfed.next hs (hok y hs)).resolve_right hlate
            rcases ih y ⟨Nat.not_lt.1 hbound, hlate, _, hs⟩ hnext with ⟨m', hm'⟩
            refine ⟨m + m', fun more => ?_⟩
            rcases hm' more with ⟨n, hn⟩
            refine ⟨n + 1, ?_⟩
            rw [Random.excerpt_add, List.append_assoc, hone]
            exact hn

end Run
end Workload
end TxWorkload
