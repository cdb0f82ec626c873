import Mathlib.Logic.Relation
import TxWorkload.Proofs.Routine.Record
import TxWorkload.Workload

/-!
# Interleaving — the tasks of a run in any order

A run takes its steps in the order that its scheduler gives. `Moves` forgets that order: in the
middle of a run either task may go on at any time, the watch goes on until it is stopped, time may
pass and the run may be cancelled at any moment. What holds of all such moves holds of the scheduled
run, which is one of them.
-/

namespace TxWorkload
namespace Workload

open Routine (Host Strand World)

namespace Run

/-! ## Moves -/

/-- A run with another world. -/
def withWorld (world : World activities) : Run → Run
  | .opening _ banner => .opening world banner
  | .working _ generation watch turn => .working world generation watch turn
  | .judging _ line watch => .judging world line watch
  | .stopping _ watch => .stopping world watch
  | .closing _ last => .closing world last

/-- One move of a run, in any interleaving. -/
inductive Moves (w : Workload) (host : Host activities) : Run → Run → Prop
  | banner {world world' : World activities} {banner banner' : Strand activities Unit}
      (h : banner.advance host world.cancelled world = some (world', banner')) :
      Moves w host (.opening world banner) (.opening world' banner')
  | spawn {world : World activities} {banner : Strand activities Unit} {turn : Turn}
      (h : banner.advance host world.cancelled world = none) :
      Moves w host (.opening world banner)
        (.working world (.active w.plan.run) (.active (Activity.watch w.network w.config.watch))
          turn)
  | generation {world world' : World activities} {generation generation' : Strand activities Nat}
      {watch : Strand activities Unit} {turn turn' : Turn}
      (h : generation.advance host world.cancelled world = some (world', generation')) :
      Moves w host (.working world generation watch turn) (.working world' generation' watch turn')
  | watch {world world' : World activities} {generation : Strand activities Nat}
      {watch watch' : Strand activities Unit} {turn turn' : Turn}
      (h : watch.advance host world.cancelled world = some (world', watch')) :
      Moves w host (.working world generation watch turn) (.working world' generation watch' turn')
  | turn {world : World activities} {generation : Strand activities Nat}
      {watch : Strand activities Unit} {turn turn' : Turn} :
      Moves w host (.working world generation watch turn) (.working world generation watch turn')
  | judge {world : World activities} {generation : Strand activities Nat}
      {watch : Strand activities Unit} {turn : Turn} {outcome : Except Error Nat}
      (h : outcome? generation = some outcome) :
      Moves w host (.working world generation watch turn)
        (.judging world (.active (verdict outcome)) watch)
  | line {world world' : World activities} {line line' watch : Strand activities Unit}
      (h : line.advance host world.cancelled world = some (world', line')) :
      Moves w host (.judging world line watch) (.judging world' line' watch)
  | beside {world world' : World activities} {line watch watch' : Strand activities Unit}
      (h : watch.advance host world.cancelled world = some (world', watch')) :
      Moves w host (.judging world line watch) (.judging world' line watch')
  | stop {world : World activities} {line watch : Strand activities Unit}
      (h : line.advance host world.cancelled world = none) :
      Moves w host (.judging world line watch) (.stopping world watch)
  | stopping {world world' : World activities} {watch watch' : Strand activities Unit}
      (h : watch.advance host true world = some (world', watch')) :
      Moves w host (.stopping world watch) (.stopping world' watch')
  | close {world : World activities} {watch : Strand activities Unit}
      (h : watch.advance host true world = none) :
      Moves w host (.stopping world watch) (.closing world (.active Workload.closing))
  | last {world world' : World activities} {last last' : Strand activities Stats.Snapshot}
      (h : last.advance host world.cancelled world = some (world', last')) :
      Moves w host (.closing world last) (.closing world' last')
  | elapse {x : Run} {moment : Nat} {cancelled : Bool} (hnow : x.world.now ≤ moment)
      (hcancelled : x.world.cancelled = true → cancelled = true) :
      Moves w host x (x.withWorld { x.world with now := moment, cancelled })

/-- What a run may become, in any interleaving. -/
def Reaches (w : Workload) (host : Host activities) : Run → Run → Prop :=
  Relation.ReflTransGen (Moves w host)

/-! ## The scheduler -/

/-- What a step of the two tasks can be. The generation only takes a step when the watch has given
way at a checkpoint or cannot go on, unless it was its turn before. -/
inductive Proceeds (host : Host activities) (world : World activities)
    (generation : Strand activities Nat) (watch : Strand activities Unit) (t : Turn) : Run → Prop
  | generation {world' : World activities} {generation' : Strand activities Nat} {t' : Turn}
      (h : generation.advance host world.cancelled world = some (world', generation'))
      (hturn : t.task = .generation ∨ watch.atCheckpoint = true ∨
        watch.advance host world.cancelled world = none) (ht : t'.task = .generation) :
      Proceeds host world generation watch t (.working world' generation' watch t')
  | watch {world' : World activities} {watch' : Strand activities Unit} {t' : Turn}
      (h : watch.advance host world.cancelled world = some (world', watch'))
      (ht : t'.task = .watch) :
      Proceeds host world generation watch t (.working world' generation watch' t')
  | pass {moment : Nat} {t' : Turn}
      (hg : generation.advance host world.cancelled world = none)
      (hw : watch.advance host world.cancelled world = none)
      (hm : world.nextMoment host ((generation.due?.map Prod.fst).toList ++
        (watch.due?.map Prod.fst).toList) = some moment) :
      Proceeds host world generation watch t
        (.working (world.passTo host moment) generation watch t')

variable {host : Host activities} {world : World activities} {generation : Strand activities Nat}
  {watch : Strand activities Unit} {t : Turn} {x y : Run}

/-- The number of transactions that the generation tells in the end. -/
def generated? : Run → Option Nat
  | .working _ generation _ _ => generation.result?
  | _ => none

/-- A generation that has ended gave a count or was aborted. -/
theorem outcome_cases {outcome : Except Error Nat} (h : outcome? generation = some outcome) :
    (∃ sent, generation = .active (.done sent) ∧ outcome = .ok sent) ∨
      ∃ cause, generation = .aborted cause ∧ outcome = .error (.task cause.message) := by
  unfold outcome? at h
  split at h
  · exact .inl ⟨_, rfl, (Option.some.inj h).symm⟩
  · exact .inr ⟨_, rfl, (Option.some.inj h).symm⟩
  · cases h

theorem proceeds_of_stepOf (h : stepOf host world generation watch t = some y)
    {t₀ : Turn} (hturn : t.task = .generation → t₀.task = .generation ∨
      watch.atCheckpoint = true ∨ watch.advance host world.cancelled world = none) :
    Proceeds host world generation watch t₀ y := by
  unfold stepOf at h
  cases htask : t.task with
  | generation =>
      rw [htask] at h
      rcases Option.map_eq_some_iff.1 h with ⟨⟨world', generation'⟩, hs, rfl⟩
      exact .generation hs (hturn htask) htask
  | watch =>
      rw [htask] at h
      rcases Option.map_eq_some_iff.1 h with ⟨⟨world', watch'⟩, hs, rfl⟩
      exact .watch hs htask

theorem stepOf_eq_none (h : stepOf host world generation watch t = none) :
    match t.task with
    | .generation => generation.advance host world.cancelled world = none
    | .watch => watch.advance host world.cancelled world = none := by
  unfold stepOf at h
  cases htask : t.task with
  | generation => rw [htask] at h; exact Option.map_eq_none_iff.1 h
  | watch => rw [htask] at h; exact Option.map_eq_none_iff.1 h

theorem proceeds_of_proceed (h : proceed host world generation watch t = some y) :
    Proceeds host world generation watch t y := by
  unfold proceed at h
  dsimp only at h
  simp only [Option.orElse_eq_orElse, Option.orElse_eq_or] at h
  -- Only in a turn that is used up does a task give way.
  split at h
  · rename_i hused
    rcases Option.or_eq_some_iff.1 h with h | ⟨-, h⟩
    · split at h
      · cases h
      · refine proceeds_of_stepOf h ?_
        intro hother
        cases htask : t.task with
        | generation => exact .inl rfl
        | watch =>
            refine .inr (.inl ?_)
            simpa [isUsedUp, htask] using (Bool.and_eq_true_iff.1 hused).2
    · exact proceeds_of_stepOf h .inl
  · rcases Option.or_eq_some_iff.1 h with h | ⟨hgo, h⟩
    · exact proceeds_of_stepOf h .inl
    rcases Option.or_eq_some_iff.1 h with h | ⟨hother, h⟩
    · refine proceeds_of_stepOf h ?_
      intro _
      cases htask : t.task with
      | generation => exact .inl rfl
      | watch =>
          have hnone := stepOf_eq_none hgo
          rw [htask] at hnone
          exact .inr (.inr hnone)
    · have hnone := stepOf_eq_none hgo
      have hnone' := stepOf_eq_none hother
      rcases Option.map_eq_some_iff.1 h with ⟨moment, hm, rfl⟩
      cases htask : t.task with
      | generation =>
          rw [htask] at hnone hnone'
          exact .pass hnone hnone' hm
      | watch =>
          rw [htask] at hnone hnone'
          exact .pass hnone' hnone hm

theorem le_of_pass {moment : Nat} (hg : generation.advance host world.cancelled world = none)
    (hw : watch.advance host world.cancelled world = none)
    (hm : world.nextMoment host ((generation.due?.map Prod.fst).toList ++
      (watch.due?.map Prod.fst).toList) = some moment) : world.now ≤ moment := by
  rcases World.nextMoment_spec hm with hmem | ⟨-, t, -, rfl⟩
  · rcases List.mem_append.1 hmem with hmem | hmem
    · exact Nat.le_of_lt (Strand.lt_due_of_advance hg hmem)
    · exact Nat.le_of_lt (Strand.lt_due_of_advance hw hmem)
  · exact Nat.le_max_left _ _

/-- Every step of the scheduler is made of moves. -/
theorem reaches_of_step {w : Workload} (h : x.step w host = some y) : Reaches w host x y := by
  cases x with
  | opening world banner =>
      simp only [step] at h
      split at h
      · rename_i hs
        cases h
        exact .single (.banner hs)
      · rename_i hs
        cases h
        exact .single (.spawn hs)
  | working world generation watch t =>
      simp only [step] at h
      split at h
      · rename_i houtcome
        cases h
        exact .single (.judge houtcome)
      · split at h
        · cases h
        · cases proceeds_of_proceed h with
          | generation hs _ _ => exact .single (.generation hs)
          | watch hs _ => exact .single (.watch hs)
          | @pass moment _ hg hw hm =>
              -- Passing time is two moves here, because it also hands the turn over.
              have helapse : Moves w host (.working world generation watch t)
                  (.working (world.passTo host moment) generation watch t) :=
                .elapse (le_of_pass hg hw hm) (world.cancelled_passTo host moment)
              exact (Relation.ReflTransGen.single helapse).tail .turn
  | judging world line watch =>
      simp only [step] at h
      split at h
      · rename_i hs
        cases h
        exact .single (.line hs)
      · rename_i hs
        cases h
        exact .single (.stop hs)
  | stopping world watch =>
      simp only [step] at h
      split at h
      · rename_i hs
        cases h
        exact .single (.stopping hs)
      · rename_i hs
        cases h
        exact .single (.close hs)
  | closing world last =>
      rcases Option.map_eq_some_iff.1 h with ⟨⟨world', last'⟩, hs, rfl⟩
      exact .single (.last hs)

/-- The scheduled run is one of the interleavings. -/
theorem reaches_run (w : Workload) (host : Host activities) (n : Nat) (x : Run) :
    Reaches w host x (run w host n x) := by
  induction n generalizing x with
  | zero => exact .refl
  | succ n ih =>
      rw [run]
      split
      · rename_i hs
        exact (reaches_of_step hs).trans (ih _)
      · exact .refl

end Run
end Workload
end TxWorkload
