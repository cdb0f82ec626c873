import TxWorkload.Proofs.Activity.Feeding
import TxWorkload.Proofs.Workload.Timeline

/-!
# Feeding — runs that are given more words

The scheduler looks at everything but the words that are left. So more words change nothing for a
run, unless one of its tasks runs out of them.
-/

namespace TxWorkload
namespace Workload

open TxWorkload.Random (excerpt)
open Routine (Host Strand World fed)

namespace Run

variable {w : Workload} {host : Host activities} {σ : Nat → UInt64} {world : World activities}
  {generation : Strand activities Nat} {watch : Strand activities Unit} {t : Turn}

/-- A run with more words behind those that are left. -/
def feed (x : Run) (more : Random.Supply) : Run :=
  x.withWorld (x.world.feed more)

/-- Whether a task of a run has run out of words. -/
def isStarved : Run → Bool
  | .working _ generation watch _ => generation.isStarved || watch.isStarved
  | _ => false

theorem isStarved_eq_false {t : Turn} :
    (Run.working world generation watch t).isStarved = false ↔
      generation.isStarved = false ∧ watch.isStarved = false :=
  Bool.or_eq_false_iff

/-! ## The scheduler -/

theorem after_feed {α : Type} (t : Turn) (s : Strand activities α) (more : Random.Supply) :
    t.after host (world.feed more) s = t.after host world s := by
  have hends : s.endsTimer host world.cancelled (world.feed more) =
      s.endsTimer host world.cancelled world := by
    cases s with
    | active p =>
        cases p with
        | wait what next => cases what <;> rfl
        | race what next => cases what <;> rfl
        | done a => rfl
        | perform e next => rfl
        | loop s body next => rfl
    | blocked pending next => rfl
    | contested pending next => rfl
    | starved => rfl
    | aborted cause => rfl
  have hcancelled : (world.feed more).cancelled = world.cancelled := rfl
  simp only [Turn.after, hcancelled, hends]

theorem stepOf_feed (hg : generation.Within (fed σ)) (hw : watch.Within (fed σ))
    (hok : ∀ y, stepOf host world generation watch t = some y → y.isStarved = false)
    (more : Random.Supply) :
    stepOf host (world.feed more) generation watch t =
      (stepOf host world generation watch t).map fun y => y.feed more := by
  have hcancelled : (world.feed more).cancelled = world.cancelled := rfl
  unfold stepOf at hok ⊢
  -- Only the task whose turn it is can run out of words.
  cases htask : t.task with
  | generation =>
      rw [htask] at hok
      dsimp only at hok ⊢
      rw [hcancelled, Strand.advance_feed hg fun r hr => ?_]
      · cases generation.advance host world.cancelled world with
        | none => rfl
        | some r => simp only [Option.map_some, after_feed]; rfl
      · rw [hr] at hok
        exact (isStarved_eq_false.1 (hok _ rfl)).1
  | watch =>
      rw [htask] at hok
      dsimp only at hok ⊢
      rw [hcancelled, Strand.advance_feed hw fun r hr => ?_]
      · cases watch.advance host world.cancelled world with
        | none => rfl
        | some r => simp only [Option.map_some, after_feed]; rfl
      · rw [hr] at hok
        exact (isStarved_eq_false.1 (hok _ rfl)).2

theorem pass_feed (more : Random.Supply) :
    pass host (world.feed more) generation watch =
      (pass host world generation watch).map fun y => y.feed more := by
  unfold pass
  dsimp only
  have hnext : ∀ dues, (world.feed more).nextMoment host dues = world.nextMoment host dues :=
    fun _ => rfl
  rw [hnext, Option.map_map]
  rfl

/-- More words change nothing for the first of two attempts that succeeds. -/
theorem or_feed {a b a' b' : Option Run} {more : Random.Supply}
    (hok : ∀ y, a.or b = some y → y.isStarved = false)
    (ha : (∀ y, a = some y → y.isStarved = false) → a' = a.map fun y => y.feed more)
    (hb : (∀ y, b = some y → y.isStarved = false) → b' = b.map fun y => y.feed more) :
    a'.or b' = (a.or b).map fun y => y.feed more := by
  cases a with
  | none =>
      have ha' : a' = none := ha fun y hy => by cases hy
      rw [ha']
      exact hb hok
  | some y =>
      rw [ha hok]
      rfl

theorem proceed_feed (hg : generation.Within (fed σ)) (hw : watch.Within (fed σ))
    (hok : ∀ y, proceed host world generation watch t = some y → y.isStarved = false)
    (more : Random.Supply) :
    proceed host (world.feed more) generation watch t =
      (proceed host world generation watch t).map fun y => y.feed more := by
  have hgo : ∀ t, (∀ y, stepOf host world generation watch t = some y → y.isStarved = false) →
      stepOf host (world.feed more) generation watch t =
        (stepOf host world generation watch t).map fun y => y.feed more :=
    fun t h => stepOf_feed hg hw h more
  unfold proceed at hok ⊢
  simp only [Option.orElse_eq_orElse, Option.orElse_eq_or] at hok ⊢
  -- The attempts are made in the same order; each of them is the same with more words.
  split
  · rename_i hused
    rw [if_pos hused] at hok
    refine or_feed hok (fun h => ?_) fun h => hgo _ h
    split
    · rfl
    · rename_i hahead
      exact hgo _ (by rwa [if_neg hahead] at h)
  · rename_i hused
    rw [if_neg hused] at hok
    exact or_feed hok (fun h => hgo _ h) fun h =>
      or_feed h (fun h => hgo _ h) fun _ => pass_feed more

/-! ## Steps -/

/-- The tasks of a run have words of a stream left, up to a place in it, and draw only what the
stream serves. -/
inductive Nourished (σ : Nat → UInt64) (stop : Nat) : Run → Prop
  | working {world : World activities} {generation : Strand activities Nat}
      {watch : Strand activities Unit} {t : Turn} (hg : generation.Within (fed σ))
      (hw : watch.Within (fed σ))
      (hstarved : generation.isStarved = false ∧ watch.isStarved = false)
      (hstock : world.Stocked σ stop) : Nourished σ stop (.working world generation watch t)

variable {x y : Run} {stop : Nat}

theorem Nourished.feed (hx : x.Nourished σ stop) (m : Nat) :
    (x.feed (excerpt σ stop m)).Nourished σ (stop + m) := by
  cases hx with
  | working hg hw hstarved hstock =>
      exact .working hg hw hstarved (World.stocked_feed hstock m)

/-- More words change nothing for a step that does not run out of them. -/
theorem Nourished.step_feed (hx : x.Nourished σ stop)
    (hok : ∀ y, x.step w host = some y → y.isStarved = false) (more : Random.Supply) :
    (x.feed more).step w host = (x.step w host).map fun y => y.feed more := by
  cases hx with
  | @working world generation watch t hg hw _ _ =>
      change step w host (.working (world.feed more) generation watch t) = _
      simp only [step] at hok ⊢
      cases houtcome : outcome? generation with
      | some outcome => rfl
      | none =>
          rw [houtcome] at hok
          dsimp only at hok ⊢
          split
          · rfl
          · rename_i hover
            rw [if_neg hover] at hok
            exact proceed_feed hg hw hok more

/-- No task runs out of words in the next step of a run if there are enough words of the
stream. -/
theorem Nourished.exists_enough (w : Workload) (host : Host activities)
    (hx : x.Nourished σ stop) :
    ∃ m, ∀ more y, (x.feed (excerpt σ stop m ++ more)).step w host = some y →
      y.isStarved = false := by
  cases hx with
  | @working world generation watch t hg hw hstarved hstock =>
      rcases hstarved with ⟨hgs, hws⟩
      rcases Strand.exists_enough host world.cancelled hg hstock with ⟨m, hm⟩
      rcases Strand.exists_enough host world.cancelled hw hstock with ⟨k, hk⟩
      refine ⟨m + k, ?_⟩
      intro more y hs
      -- Either task has its words first, and those of the other one behind them.
      have hleft : excerpt σ stop (m + k) ++ more =
          excerpt σ stop m ++ (excerpt σ (stop + m) k ++ more) := by
        rw [Random.excerpt_add, List.append_assoc]
      have hright : excerpt σ stop (m + k) ++ more =
          excerpt σ stop k ++ (excerpt σ (stop + k) m ++ more) := by
        rw [Nat.add_comm m k, Random.excerpt_add, List.append_assoc]
      change step w host (.working (world.feed _) generation watch t) = _ at hs
      simp only [step] at hs
      split at hs
      · cases hs
        rfl
      · split at hs
        · cases hs
        · cases proceeds_of_proceed hs with
          | generation hgo _ _ =>
              rw [hleft] at hgo
              exact isStarved_eq_false.2 ⟨hm _ _ hgo, hws⟩
          | watch hgo _ =>
              rw [hright] at hgo
              exact isStarved_eq_false.2 ⟨hgs, hk _ _ hgo⟩
          | pass _ _ _ => exact isStarved_eq_false.2 ⟨hgs, hws⟩

/-- A step leaves words of the stream, up to the same place. -/
theorem Nourished.next (hx : x.Nourished σ stop) (h : x.step w host = some y)
    (hy : y.isStarved = false) : y.Nourished σ stop ∨ y.Late := by
  cases hx with
  | @working world generation watch t hg hw hstarved hstock =>
      -- The generation may end in this step; otherwise both tasks go on within their licence.
      simp only [step] at h
      split at h
      · cases h
        exact .inr trivial
      · split at h
        · cases h
        · refine .inl ?_
          cases proceeds_of_proceed h with
          | generation hs _ _ =>
              exact .working (Strand.within_of_advance hg hs) hw (isStarved_eq_false.1 hy)
                (Strand.stocked_of_advance hg hs hstock)
          | watch hs _ =>
              exact .working hg (Strand.within_of_advance hw hs) (isStarved_eq_false.1 hy)
                (Strand.stocked_of_advance hw hs hstock)
          | pass _ _ _ => exact .working hg hw hstarved hstock

end Run
end Workload
end TxWorkload
