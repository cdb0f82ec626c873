import Mathlib.Logic.Relation
import TxWorkload.Activity.Basic
import TxWorkload.Routine.Strand

/-!
# Callers — the counters under concurrent use

Any number of callers make calls on shared counters. Most calls are one atomic step. An observation
is two: it raises the watermark, and then adds what the watermark grew by to the blocks observed,
so in between the caller owes blocks to the counter. Nothing is assumed of the order in which the
callers take their steps.
-/

namespace TxWorkload
namespace Stats

open Activity (count observe)
open Routine (Host Strand World)

/-- The number of blocks that several deltas make. -/
def blocks (deltas : List UInt64) : Nat :=
  deltas.foldr (fun delta n => delta.toNat + n) 0

@[simp]
theorem blocks_nil : blocks [] = 0 :=
  rfl

@[simp]
theorem blocks_cons (delta : UInt64) (deltas : List UInt64) :
    blocks (delta :: deltas) = delta.toNat + blocks deltas :=
  rfl

@[simp]
theorem blocks_append (deltas more : List UInt64) :
    blocks (deltas ++ more) = blocks deltas + blocks more := by
  induction deltas with
  | nil => exact (Nat.zero_add _).symm
  | cons delta deltas ih =>
      calc blocks (delta :: deltas ++ more) = delta.toNat + blocks (deltas ++ more) := rfl
        _ = delta.toNat + (blocks deltas + blocks more) := by rw [ih]
        _ = blocks (delta :: deltas) + blocks more := (Nat.add_assoc _ _ _).symm

theorem toNat_le_blocks {delta : UInt64} {deltas : List UInt64} (h : delta ∈ deltas) :
    delta.toNat ≤ blocks deltas := by
  induction h with
  | head deltas => exact Nat.le_add_right _ _
  | tail other _ ih => exact Nat.le_trans ih (Nat.le_add_left _ _)

/-! ## Calls -/

/-- A call on the counters. -/
inductive Call
  | submitted
  | accepted
  | failed
  | observed (height : UInt64)
  deriving DecidableEq, Repr

namespace Call

/-- The counter that a call adds one to. -/
def counter? : Call → Option Counter
  | submitted => some .total
  | accepted => some .successful
  | failed => some .failed
  | observed _ => none

/-- The greatest height among calls, or zero. -/
def highest (calls : List Call) : Nat :=
  calls.foldr (fun call most => match call with
    | observed height => max height.toNat most
    | _ => most) 0

/-- Make calls in order. The numbers of blocks that the observations tell are put in front of those
that were told already. -/
def serve (told : List UInt64) : List Call → Activity (List UInt64)
  | [] => return told
  | submitted :: rest => do
      count .total
      serve told rest
  | accepted :: rest => do
      count .successful
      serve told rest
  | failed :: rest => do
      count .failed
      serve told rest
  | observed height :: rest => do
      let delta ← observe height
      serve (delta :: told) rest

end Call

/-! ## Callers -/

/-- Callers that share a world. -/
structure Callers where
  world : World activities
  strands : List (Strand activities (List UInt64))

namespace Callers

/-- Some caller takes its next step. -/
inductive Step (host : Host activities) : Callers → Callers → Prop
  | of {world world' : World activities} {strand strand' : Strand activities (List UInt64)}
      (before after : List (Strand activities (List UInt64))) (token : Bool)
      (h : strand.advance host token world = some (world', strand')) :
      Step host ⟨world, before ++ strand :: after⟩ ⟨world', before ++ strand' :: after⟩

/-- What the callers have become after some steps, in any order. -/
def Reaches (host : Host activities) : Callers → Callers → Prop :=
  Relation.ReflTransGen (Step host)

/-- Callers with calls to make, and new counters. -/
def start (world : World activities) (calls : List (List Call)) : Callers where
  world := { world with counters := {} }
  strands := calls.map fun calls => .active (Call.serve [] calls)

/-- The blocks that a caller is about to add. -/
def owed? : Strand activities (List UInt64) → Option UInt64
  | .active (.perform (.access (.add .blocksObserved delta)) _) => some delta
  | _ => none

/-- The blocks that callers are about to add. -/
def owed (x : Callers) : List UInt64 :=
  x.strands.flatMap fun strand => (owed? strand).toList

/-- Whether all calls have returned. -/
def Returned (x : Callers) : Prop :=
  ∀ strand ∈ x.strands, strand.result?.isSome = true

/-- The numbers of blocks that were told to callers whose calls have returned. -/
def told (x : Callers) : List UInt64 :=
  x.strands.flatMap fun strand => strand.result?.getD []

end Callers

/-! ## Stages of a caller -/

/-- Where a caller is: between two calls, or between the two steps of an observation. -/
inductive Stage
  | ready (told : List UInt64) (rest : List Call)
  | owing (told : List UInt64) (delta : UInt64) (rest : List Call)

namespace Stage

open Routine (World.perform World.note)

/-- The caller at a stage. -/
def strand : Stage → Strand activities (List UInt64)
  | ready told rest => .active (Call.serve told rest)
  | owing told delta rest =>
      .active (.perform (.access (.add .blocksObserved delta)) fun _ =>
        Call.serve (delta :: told) rest)

/-- The calls that are still to be made. -/
def rest : Stage → List Call
  | ready _ rest => rest
  | owing _ _ rest => rest

/-- The blocks that were told so far. -/
def told : Stage → List UInt64
  | ready told _ => told
  | owing told _ _ => told

/-- The blocks that are still to be added. -/
def owed : Stage → List UInt64
  | ready _ _ => []
  | owing _ delta _ => [delta]

/-- What one step of a caller does to the counters and to its stage. -/
inductive Moves : Counters × Stage → Counters × Stage → Prop
  | counts (s : Counters) (told : List UInt64) (call : Call) (rest : List Call) (c : Counter)
      (h : call.counter? = some c) :
      Moves (s, ready told (call :: rest)) (s.set c (s.get c + 1), ready told rest)
  | rises (s : Counters) (told : List UInt64) (height : UInt64) (rest : List Call)
      (h : s.lastBlock < height) :
      Moves (s, ready told (.observed height :: rest))
        ({ s with lastBlock := height }, owing told (height - s.lastBlock) rest)
  | stays (s : Counters) (told : List UInt64) (height : UInt64) (rest : List Call)
      (h : height ≤ s.lastBlock) :
      Moves (s, ready told (.observed height :: rest)) (s, ready (0 :: told) rest)
  | pays (s : Counters) (told : List UInt64) (delta : UInt64) (rest : List Call) :
      Moves (s, owing told delta rest)
        ({ s with blocksObserved := s.blocksObserved + delta }, ready (delta :: told) rest)

theorem moves_of_advance {host : Host activities} {token : Bool} {w w' : World activities}
    {strand' : Strand activities (List UInt64)} (x : Stage)
    (h : x.strand.advance host token w = some (w', strand')) :
    ∃ y, strand' = y.strand ∧ Moves (w.counters, x) (w'.counters, y) := by
  -- A call counts in one step, except for an observation above the watermark.
  cases x with
  | owing told delta rest =>
      cases h
      exact ⟨ready (delta :: told) rest, rfl, .pays w.counters told delta rest⟩
  | ready told rest =>
      cases rest with
      | nil => cases h
      | cons call rest =>
          cases call with
          | submitted =>
              cases h
              exact ⟨ready told rest, rfl, .counts w.counters told .submitted rest _ rfl⟩
          | accepted =>
              cases h
              exact ⟨ready told rest, rfl, .counts w.counters told .accepted rest _ rfl⟩
          | failed =>
              cases h
              exact ⟨ready told rest, rfl, .counts w.counters told .failed rest _ rfl⟩
          | observed height =>
              cases h
              by_cases hlt : w.counters.lastBlock < height
              · refine ⟨owing told (height - w.counters.lastBlock) rest, ?_, ?_⟩
                · exact congrArg Strand.active (congrArg (fun p : Activity UInt64 =>
                    p.andThen fun delta => Call.serve (delta :: told) rest) (if_pos hlt))
                · have hmoves := Moves.rises w.counters told height rest hlt
                  simpa [World.note, Access.apply, Access.update, Access.counter, Counters.get,
                    Counters.set, hlt] using hmoves
              · refine ⟨ready (0 :: told) rest, ?_, ?_⟩
                · exact congrArg Strand.active (congrArg (fun p : Activity UInt64 =>
                    p.andThen fun delta => Call.serve (delta :: told) rest) (if_neg hlt))
                · have hmoves := Moves.stays w.counters told height rest (UInt64.not_lt.1 hlt)
                  simpa [World.note, Access.apply, Access.update, Access.counter, Counters.get,
                    Counters.set, hlt] using hmoves

end Stage

/-! ## The invariant -/

open Stage (Moves)

namespace Call

theorem highest_observed (height : UInt64) (calls : List Call) :
    highest (.observed height :: calls) = max height.toNat (highest calls) :=
  rfl

theorem highest_counted {call : Call} {c : Counter} (h : call.counter? = some c)
    (calls : List Call) : highest (call :: calls) = highest calls := by
  cases call with
  | observed height => cases h
  | submitted => rfl
  | accepted => rfl
  | failed => rfl

theorem highest_append (calls others : List Call) :
    highest (calls ++ others) = max (highest calls) (highest others) := by
  induction calls with
  | nil => simp [highest]
  | cons call calls ih =>
      rw [List.cons_append]
      cases call with
      | observed height => rw [highest_observed, highest_observed, ih, Nat.max_assoc]
      | submitted => exact ih
      | accepted => exact ih
      | failed => exact ih

theorem counter?_inj {call other : Call} {c : Counter} (h : call.counter? = some c)
    (h' : other.counter? = some c) : call = other := by
  cases call <;> cases h <;> cases other <;> first | rfl | cases h'

end Call

/-- What holds of the counters and the stages of all callers between any two steps. -/
structure Sound (calls : List Call) (s : Counters) (stages : List Stage) : Prop where
  told : blocks (stages.flatMap Stage.told) = s.blocksObserved.toNat
  owed : s.blocksObserved.toNat + blocks (stages.flatMap Stage.owed) =
    s.lastBlock.toNat
  highest : max s.lastBlock.toNat (Call.highest (stages.flatMap Stage.rest)) = Call.highest calls
  counted : ∀ call c, call.counter? = some c →
    s.get c + UInt64.ofNat ((stages.flatMap Stage.rest).count call) =
      UInt64.ofNat (calls.count call)

namespace Sound

variable {calls : List Call} {s s' : Counters} {x x' : Stage} {before after : List Stage}

theorem of_counts {told : List UInt64} {call : Call} {rest : List Call} {c : Counter}
    (hc : call.counter? = some c)
    (h : Sound calls s (before ++ .ready told (call :: rest) :: after)) :
    Sound calls (s.set c (s.get c + 1)) (before ++ .ready told rest :: after) := by
  have hblocks : (s.set c (s.get c + 1)).blocksObserved = s.blocksObserved ∧
      (s.set c (s.get c + 1)).lastBlock = s.lastBlock := by
    cases call <;> cases hc <;> exact ⟨rfl, rfl⟩
  -- Blocks and heights are not touched; the call goes over to the counter.
  refine ⟨?_, ?_, ?_, ?_⟩
  · simpa [Stage.told, hblocks] using h.told
  · simpa [Stage.owed, hblocks] using h.owed
  · have hmax := h.highest
    simp only [List.flatMap_append, List.flatMap_cons, Stage.rest, Call.highest_append,
      List.cons_append, Call.highest_counted hc, hblocks] at hmax ⊢
    exact hmax
  · intro other c' hc'
    have hcount := h.counted other c' hc'
    simp only [List.flatMap_append, List.flatMap_cons, Stage.rest, List.count_append,
      List.cons_append, List.count_cons] at hcount ⊢
    rw [← hcount]
    by_cases heq : call = other
    · subst heq
      obtain rfl : c' = c := by rw [hc] at hc'; exact (Option.some.inj hc').symm
      have hget : (s.set c' (s.get c' + 1)).get c' = s.get c' + 1 := by cases c' <;> rfl
      rw [hget]
      simp [← Nat.add_assoc, UInt64.ofNat_add]
      ac_rfl
    · have hget : (s.set c (s.get c + 1)).get c' = s.get c' := by
        have hne : c' ≠ c := fun h => heq (Call.counter?_inj (h ▸ hc) hc')
        cases c' <;> cases c <;> first | rfl | exact absurd rfl hne
      simp [hget, heq]

theorem of_rises {told : List UInt64} {height : UInt64} {rest : List Call}
    (hlt : s.lastBlock < height)
    (h : Sound calls s (before ++ .ready told (.observed height :: rest) :: after)) :
    Sound calls { s with lastBlock := height }
      (before ++ .owing told (height - s.lastBlock) rest :: after) := by
  -- The caller owes as much as the watermark rises.
  have hdelta : (height - s.lastBlock).toNat = height.toNat - s.lastBlock.toNat :=
    UInt64.toNat_sub_of_le _ _ (UInt64.le_of_lt hlt)
  have hlt' := UInt64.lt_iff_toNat_lt.1 hlt
  refine ⟨?_, ?_, ?_, ?_⟩
  · simpa [Stage.told] using h.told
  · have howed := h.owed
    simp [Stage.owed, hdelta] at howed ⊢
    omega
  · have hmax := h.highest
    simp only [List.flatMap_append, List.flatMap_cons, Stage.rest, Call.highest_append,
      List.cons_append, Call.highest_observed] at hmax ⊢
    omega
  · intro call c hc
    have hcount := h.counted call c hc
    cases call <;> cases hc <;> simpa [Stage.rest, Counters.get, List.count_cons] using hcount

theorem of_stays {told : List UInt64} {height : UInt64} {rest : List Call}
    (hle : height ≤ s.lastBlock)
    (h : Sound calls s (before ++ .ready told (.observed height :: rest) :: after)) :
    Sound calls s (before ++ .ready (0 :: told) rest :: after) := by
  -- The height is not above the watermark, so the greatest height is what it was.
  have hle' := UInt64.le_iff_toNat_le.1 hle
  refine ⟨?_, ?_, ?_, ?_⟩
  · simpa [Stage.told] using h.told
  · simpa [Stage.owed] using h.owed
  · have hmax := h.highest
    simp only [List.flatMap_append, List.flatMap_cons, Stage.rest, Call.highest_append,
      List.cons_append, Call.highest_observed] at hmax ⊢
    omega
  · intro call c hc
    have hcount := h.counted call c hc
    cases call <;> cases hc <;> simpa [Stage.rest, List.count_cons] using hcount

theorem of_pays {told : List UInt64} {delta : UInt64} {rest : List Call}
    (h : Sound calls s (before ++ .owing told delta rest :: after)) :
    Sound calls { s with blocksObserved := s.blocksObserved + delta }
      (before ++ .ready (delta :: told) rest :: after) := by
  have howed := h.owed
  simp [Stage.owed] at howed
  have hlast := s.lastBlock.toNat_lt
  -- The watermark bounds what is owed, so the sum does not wrap.
  have hsum : (s.blocksObserved + delta).toNat = s.blocksObserved.toNat + delta.toNat := by
    rw [UInt64.toNat_add, Nat.mod_eq_of_lt (by omega)]
  refine ⟨?_, ?_, ?_, ?_⟩
  · have htold := h.told
    simp [Stage.told, hsum] at htold ⊢
    omega
  · simp [Stage.owed, hsum]
    omega
  · simpa [Stage.rest] using h.highest
  · intro call c hc
    have hcount := h.counted call c hc
    cases call <;> cases hc <;> simpa [Stage.rest, Counters.get] using hcount

/-- The invariant survives a step of any caller. -/
theorem of_moves (hm : Moves (s, x) (s', x')) (h : Sound calls s (before ++ x :: after)) :
    Sound calls s' (before ++ x' :: after) := by
  cases hm with
  | counts _ told call rest c hc => exact h.of_counts hc
  | rises _ told height rest hlt => exact h.of_rises hlt
  | stays _ told height rest hle => exact h.of_stays hle
  | pays _ told delta rest => exact h.of_pays

theorem start (calls : List (List Call)) :
    Sound calls.flatten {} (calls.map (Stage.ready [])) := by
  have hrest : (calls.map (Stage.ready [])).flatMap Stage.rest = calls.flatten := by
    rw [List.flatMap_map]
    exact List.flatMap_id'
  have hnone : calls.flatMap (fun _ => ([] : List UInt64)) = [] :=
    List.flatMap_eq_nil_iff.2 fun _ _ => rfl
  refine ⟨?_, ?_, ?_, ?_⟩
  · simp [List.flatMap_map, Stage.told, hnone]
  · simp [List.flatMap_map, Stage.owed, hnone]
  · rw [hrest]
    exact Nat.zero_max _
  · intro call c hc
    rw [hrest]
    cases c <;> exact UInt64.zero_add _

end Sound

/-! ## Every interleaving -/

namespace Callers

variable {host : Host activities} {x y : Callers}

/-- A step of some caller is a move of its stage, and leaves the other stages alone. -/
theorem moves_of_step {stages : List Stage} (hx : x.strands = stages.map Stage.strand)
    (h : Step host x y) :
    ∃ before stage after stage', stages = before ++ stage :: after ∧
      y.strands = (before ++ stage' :: after).map Stage.strand ∧
        Moves (x.world.counters, stage) (y.world.counters, stage') := by
  cases h with
  | of before after token hs =>
      rcases List.map_eq_append_iff.1 hx.symm with ⟨before, rest, rfl, rfl, hrest⟩
      rcases List.map_eq_cons_iff.1 hrest with ⟨stage, after, rfl, rfl, rfl⟩
      rcases stage.moves_of_advance hs with ⟨stage', rfl, hmoves⟩
      exact ⟨before, stage, after, stage', rfl, by simp, hmoves⟩

theorem sound_of_reaches {world : World activities} {calls : List (List Call)}
    (h : Reaches host (start world calls) x) :
    ∃ stages, x.strands = stages.map Stage.strand ∧
      Sound calls.flatten x.world.counters stages := by
  induction h with
  | refl => exact ⟨calls.map (Stage.ready []), by simp [start, Stage.strand], Sound.start calls⟩
  | tail _ hstep ih =>
      rcases ih with ⟨stages, hx, hsound⟩
      rcases moves_of_step hx hstep with ⟨before, stage, after, stage', rfl, hy, hmoves⟩
      exact ⟨_, hy, hsound.of_moves hmoves⟩

theorem lastBlock_le_of_moves {s s' : Counters} {stage stage' : Stage}
    (h : Moves (s, stage) (s', stage')) : s.lastBlock ≤ s'.lastBlock := by
  cases h with
  | counts _ told call rest c hc => cases call <;> cases hc <;> exact UInt64.le_refl _
  | rises _ told height rest hlt => exact UInt64.le_of_lt hlt
  | stays _ told height rest hle => exact UInt64.le_refl _
  | pays _ told delta rest => exact UInt64.le_refl _

theorem owed?_strand (stage : Stage) : (owed? stage.strand).toList = stage.owed := by
  cases stage with
  | owing told delta rest => rfl
  | ready told rest =>
      cases rest with
      | nil => rfl
      | cons call rest => cases call <;> rfl

theorem owed_eq {stages : List Stage} (hx : x.strands = stages.map Stage.strand) :
    x.owed = stages.flatMap Stage.owed := by
  rw [owed, hx, List.flatMap_map]
  simp only [owed?_strand]

theorem ready_of_result {stage : Stage} (h : stage.strand.result?.isSome = true) :
    stage = .ready stage.told [] ∧ stage.strand.result? = some stage.told := by
  cases stage with
  | owing told delta rest => cases h
  | ready told rest =>
      cases rest with
      | nil => exact ⟨rfl, rfl⟩
      | cons call rest => cases call <;> cases h

theorem told_eq {stages : List Stage} (hx : x.strands = stages.map Stage.strand)
    (h : x.Returned) :
    stages.flatMap Stage.rest = [] ∧ stages.flatMap Stage.owed = [] ∧
      x.told = stages.flatMap Stage.told := by
  -- Every caller that has returned has no calls left and owes nothing.
  have hready : ∀ stage ∈ stages, stage.strand.result?.isSome = true := fun stage hs =>
    h _ (by simpa [hx] using ⟨stage, hs, rfl⟩)
  refine ⟨?_, ?_, ?_⟩
  · refine List.flatMap_eq_nil_iff.2 ?_
    intro stage hs
    rw [(ready_of_result (hready stage hs)).1, Stage.rest]
  · refine List.flatMap_eq_nil_iff.2 ?_
    intro stage hs
    rw [(ready_of_result (hready stage hs)).1, Stage.owed]
  · rw [told, hx, List.flatMap_map, List.flatMap_def, List.flatMap_def]
    refine congrArg List.flatten (List.map_congr_left fun stage hs => ?_)
    rw [(ready_of_result (hready stage hs)).2, Option.getD_some]

theorem exists_advance (host : Host activities) (w : World activities) (stage : Stage)
    (h : stage.strand.result?.isSome = false) :
    ∃ r, stage.strand.advance host false w = some r := by
  cases stage with
  | owing told delta rest => exact ⟨_, rfl⟩
  | ready told rest =>
      cases rest with
      | nil => cases h
      | cons call rest => cases call <;> exact ⟨_, rfl⟩

/-- No caller waits for another. -/
theorem exists_step {stages : List Stage} (hx : x.strands = stages.map Stage.strand)
    (h : ¬ x.Returned) : ∃ y, Step host x y := by
  rcases x with ⟨world, strands⟩
  obtain ⟨strand, hmem, hresult⟩ : ∃ strand ∈ strands, ¬ strand.result?.isSome = true := by
    simpa [Returned] using h
  obtain rfl : strands = stages.map Stage.strand := hx
  -- A caller that has not returned can take its next step whatever the others do.
  rcases List.mem_map.1 hmem with ⟨stage, -, rfl⟩
  rcases List.append_of_mem hmem with ⟨before, after, hsplit⟩
  rw [hsplit]
  obtain ⟨⟨world', strand'⟩, hs⟩ :=
    exists_advance host world stage (Bool.eq_false_iff.2 hresult)
  exact ⟨_, .of before after false hs⟩

/-- In every interleaving the watermark never goes back and the blocks that were counted or are
owed add up to it, so no count of blocks wraps around. When all calls have returned, the watermark
is the greatest height, all its blocks are counted and were told once, and the other counters tell
the numbers of calls modulo `2 ^ 64`. Until then some caller can go on. -/
theorem counters_of_interleaving (host : Host activities) (world : World activities)
    (calls : List (List Call)) (x : Callers) (h : Reaches host (start world calls) x) :
    let s := x.world.counters
    (∀ y, Step host x y → s.lastBlock ≤ y.world.counters.lastBlock) ∧
      s.blocksObserved.toNat + blocks x.owed = s.lastBlock.toNat ∧
      s.blocksObserved ≤ s.lastBlock ∧
      (∀ delta ∈ x.owed, s.blocksObserved.toNat + delta.toNat < UInt64.size) ∧
      (¬ x.Returned → ∃ y, Step host x y) ∧
      (x.Returned →
        s.lastBlock.toNat = Call.highest calls.flatten ∧
        s.blocksObserved = s.lastBlock ∧
        blocks x.told = s.lastBlock.toNat ∧
        s.total = .ofNat (calls.flatten.count .submitted) ∧
        s.successful = .ofNat (calls.flatten.count .accepted) ∧
        s.failed = .ofNat (calls.flatten.count .failed)) := by
  rcases sound_of_reaches h with ⟨stages, hx, hsound⟩
  have howed := hsound.owed
  rw [← owed_eq hx] at howed
  refine ⟨fun y hstep => ?_, howed, ?_, fun delta hdelta => ?_, exists_step hx,
    fun hreturned => ?_⟩
  · rcases moves_of_step hx hstep with ⟨before, stage, after, stage', -, -, hmoves⟩
    exact lastBlock_le_of_moves hmoves
  · exact UInt64.le_iff_toNat_le.2 (by omega)
  · have hle := toNat_le_blocks hdelta
    have hlast := x.world.counters.lastBlock.toNat_lt_size
    omega
  · rcases told_eq hx hreturned with ⟨hrest, hnone, htold⟩
    have hblocks : x.world.counters.blocksObserved = x.world.counters.lastBlock := by
      refine UInt64.toNat_inj.1 ?_
      rw [owed_eq hx, hnone] at howed
      exact howed
    have hcounted := hsound.counted
    have hmax := hsound.highest
    rw [hrest] at hmax hcounted
    refine ⟨?_, hblocks, ?_, ?_, ?_, ?_⟩
    · simpa [Call.highest] using hmax
    · rw [htold, hsound.told, hblocks]
    · simpa [Counters.get] using hcounted .submitted .total rfl
    · simpa [Counters.get] using hcounted .accepted .successful rfl
    · simpa [Counters.get] using hcounted .failed .failed rfl

/-- Two callers whose observations overlap: each has raised the watermark before either adds. -/
theorem counters_of_two_observers :
    ∃ x, Reaches { transport := fun _ _ => { answer := none } }
        (start {} [[.observed 5], [.observed 7, .submitted]]) x ∧ x.Returned ∧
      x.world.counters.lastBlock.toNat = 7 ∧ blocks x.told = 7 := by
  obtain ⟨x, hx, hreturned⟩ : ∃ x, Reaches { transport := fun _ _ => { answer := none } }
      (start {} [[.observed 5], [.observed 7, .submitted]]) x ∧ x.Returned := by
    have hfirst : Reaches { transport := fun _ _ => { answer := none } }
        (start {} [[.observed 5], [.observed 7, .submitted]]) _ :=
      .single (.of [] [_] false rfl)
    have hraised := hfirst.tail (.of [_] [] false rfl)
    have hadded := (hraised.tail (.of [] [_] false rfl)).tail (.of [_] [] false rfl)
    refine ⟨_, hadded.tail (.of [_] [] false rfl), fun strand hs => ?_⟩
    rcases List.mem_cons.1 hs with rfl | hs
    · rfl
    · rcases List.mem_singleton.1 hs with rfl
      rfl
  rcases (counters_of_interleaving _ _ _ x hx).2.2.2.2.2 hreturned with ⟨hlast, -, htold, -⟩
  exact ⟨x, hx, hreturned, hlast, htold.trans hlast⟩

end Callers
end Stats
end TxWorkload
