import TxWorkload.Proofs.Activity.Bystander
import TxWorkload.Proofs.Routine.Discipline

/-!
# Watermark — the highest block that any poll has seen

A poll raises the watermark, adds what it grew by to the blocks observed, and notes its height. In
between it is in debt: it owes blocks to the counter, and its height to the journal. A task is free
of debt whenever it waits, so a poll that is cut short has done nothing yet. Whoever takes the next
step, the watermark is the greatest height among those noted and those still owed, and the blocks
observed and owed add up to it.
-/

namespace TxWorkload
namespace Activity

open Routine
open Routine (Effect Wait Licence Discipline World Host)

/-! ## Heights -/

/-- The height of a poll that has ended well. -/
def Milestone.height? : Milestone → Option UInt64
  | polled (.ok report) => some report.height
  | _ => none

/-- The heights of the polls that have ended well, latest first. -/
def heights (w : World activities) : List UInt64 :=
  w.marks.filterMap Milestone.height?

/-- The greatest of some heights, or zero. -/
def highest (heights : List UInt64) : Nat :=
  heights.foldr (fun height most => max height.toNat most) 0

theorem highest_cons (height : UInt64) (heights : List UInt64) :
    highest (height :: heights) = max height.toNat (highest heights) :=
  rfl

theorem heights_marked (w : World activities) (m : Milestone) :
    heights (w.note (.marked m)) = m.height?.toList ++ heights w := by
  have hmarks : (w.note (.marked m)).marks = m :: w.marks := rfl
  rw [heights, hmarks, List.filterMap_cons]
  cases m.height? with
  | none => rfl
  | some height => rfl

/-! ## Debts -/

/-- What a task still owes for a poll: blocks to the counter and its height to the journal. -/
inductive Debt
  | clear
  | unpaid (delta height : UInt64)
  | unnoted (height : UInt64)

namespace Debt

/-- The blocks that are owed. -/
def owed : Debt → Nat
  | unpaid delta _ => delta.toNat
  | _ => 0

/-- The height that is owed, or zero. -/
def seen : Debt → Nat
  | clear => 0
  | unpaid _ height => height.toNat
  | unnoted height => height.toNat

/-- Accesses that have nothing to do with blocks. -/
def spares : Stats.Access → Prop
  | .load _ => True
  | a => a.counter ≠ .lastBlock ∧ a.counter ≠ .blocksObserved

/-- What a task in debt may do next: it only pays. Without debt it may begin a new one, and notes
no height. -/
def allows : Debt → {β : Type} → Effect activities β → Prop
  | clear, _, .access (.raise .lastBlock _) => True
  | clear, _, .access a => spares a
  | clear, _, .mark m => m.height? = none
  | clear, _, _ => True
  | unpaid delta _, _, .access a => a = .add .blocksObserved delta
  | unnoted height, _, .mark m => m.height? = some height
  | _, _, _ => False

/-- The debt after an effect. Only a height above the watermark brings new blocks. -/
def next : Debt → {β : Type} → Effect activities β → β → Debt
  | clear, _, .access (.raise .lastBlock new), before =>
      if before < new then unpaid (new - before) new else unnoted new
  | clear, _, _, _ => clear
  | unpaid _ new, _, _, _ => unnoted new
  | unnoted _, _, _, _ => clear

end Debt

/-- Observations are noted before anything else is done. -/
def observing : Discipline activities where
  Stage := Debt
  rest := .clear
  allows := Debt.allows
  next := Debt.next
  draw_rest := fun {stage} _ _ h => by
    cases stage with
    | clear => rfl
    | unpaid delta height => exact h.elim
    | unnoted height => exact h.elim

/-! ## The ledger -/

/-- What holds of the watermark, the blocks observed and the heights noted, while two tasks are in
debt; other heights were noted before. -/
structure Ledger (before : List UInt64) (w : World activities) (debt other : Debt) : Prop where
  lastBlock : w.counters.lastBlock.toNat =
    max (highest (heights w ++ before)) (max debt.seen other.seen)
  blocks : w.counters.blocksObserved.toNat + debt.owed + other.owed = w.counters.lastBlock.toNat

/-- Neither the watermark nor the blocks observed decrease. -/
def Rises (w w' : World activities) : Prop :=
  w.counters.lastBlock ≤ w'.counters.lastBlock ∧
    w.counters.blocksObserved ≤ w'.counters.blocksObserved

theorem rises_refl (w : World activities) : Rises w w :=
  ⟨UInt64.le_refl _, UInt64.le_refl _⟩

namespace Ledger

variable {before : List UInt64} {w w' : World activities} {debt other : Debt}

theorem symm (h : Ledger before w debt other) : Ledger before w other debt where
  lastBlock := by rw [h.lastBlock, Nat.max_comm debt.seen]
  blocks := by rw [Nat.add_right_comm, h.blocks]

/-- What leaves the two counters and the heights alone leaves the ledger alone. -/
theorem of_same (h : Ledger before w debt other)
    (hlast : w'.counters.lastBlock = w.counters.lastBlock)
    (hblocks : w'.counters.blocksObserved = w.counters.blocksObserved)
    (hheights : heights w' = heights w) : Ledger before w' debt other ∧ Rises w w' := by
  refine ⟨⟨?_, ?_⟩, ?_, ?_⟩
  · rw [hlast, hheights, h.lastBlock]
  · rw [hlast, hblocks, h.blocks]
  · exact UInt64.le_of_eq hlast.symm
  · exact UInt64.le_of_eq hblocks.symm

/-- Time and cancellation leave the ledger alone. -/
theorem elapse (h : Ledger before w debt other) (now : Nat) (cancelled : Bool) :
    Ledger before { w with now, cancelled } debt other :=
  ⟨h.lastBlock, h.blocks⟩

/-- A poll raises the watermark, and is in debt for what is new. -/
theorem of_raise (h : Ledger before w .clear other) (new : UInt64) (hw' : w' =
    { w with counters := ((Stats.Access.raise .lastBlock new).apply w.counters).2 }.note
      (.counted (.raise .lastBlock new))) :
    Ledger before w' (if w.counters.lastBlock < new then
      .unpaid (new - w.counters.lastBlock) new else .unnoted new) other ∧ Rises w w' := by
  have hlast := h.lastBlock
  have howed := h.blocks
  have hheights : heights w' = heights w := by rw [hw']; rfl
  have hblocks : w'.counters.blocksObserved = w.counters.blocksObserved := by rw [hw']; rfl
  have hraised : w'.counters.lastBlock =
      if w.counters.lastBlock < new then new else w.counters.lastBlock := by rw [hw']; rfl
  by_cases hnew : w.counters.lastBlock < new
  · have hle := UInt64.le_of_lt hnew
    have hdelta := UInt64.toNat_sub_of_le _ _ hle
    have hlt := UInt64.lt_iff_toNat_lt.1 hnew
    simp only [hnew, if_true] at hraised ⊢
    refine ⟨⟨?_, ?_⟩, ?_, UInt64.le_of_eq hblocks.symm⟩
    · rw [hraised, hheights]
      simp only [Debt.seen] at hlast ⊢
      omega
    · rw [hraised, hblocks]
      simp only [Debt.owed] at howed ⊢
      omega
    · rwa [hraised]
  · have hle := UInt64.le_iff_toNat_le.1 (UInt64.not_lt.1 hnew)
    simp only [hnew, if_false] at hraised ⊢
    refine ⟨⟨?_, ?_⟩, UInt64.le_of_eq hraised.symm, UInt64.le_of_eq hblocks.symm⟩
    · rw [hraised, hheights]
      simp only [Debt.seen] at hlast ⊢
      omega
    · rw [hraised, hblocks]
      simpa only [Debt.owed] using howed

/-- The blocks that were owed are added; there is room for them below the watermark. -/
theorem of_add {delta new : UInt64} (h : Ledger before w (.unpaid delta new) other) (hw' : w' =
    { w with counters := ((Stats.Access.add .blocksObserved delta).apply w.counters).2 }.note
      (.counted (.add .blocksObserved delta))) :
    Ledger before w' (.unnoted new) other ∧ Rises w w' := by
  have hlast : w'.counters.lastBlock = w.counters.lastBlock := by rw [hw']; rfl
  have hheights : heights w' = heights w := by rw [hw']; rfl
  have hadded : w'.counters.blocksObserved = w.counters.blocksObserved + delta := by rw [hw']; rfl
  have howed : w.counters.blocksObserved.toNat + delta.toNat + other.owed =
      w.counters.lastBlock.toNat := h.blocks
  have hroom : w.counters.blocksObserved.toNat + delta.toNat < 2 ^ 64 := by
    have hbound := w.counters.lastBlock.toNat_lt
    omega
  have hsum : w'.counters.blocksObserved.toNat =
      w.counters.blocksObserved.toNat + delta.toNat := by
    rw [hadded, UInt64.toNat_add, Nat.mod_eq_of_lt hroom]
  refine ⟨⟨?_, ?_⟩, UInt64.le_of_eq hlast.symm, ?_⟩
  · rw [hlast, hheights]
    exact h.lastBlock
  · rw [hlast, hsum]
    exact howed
  · rw [UInt64.le_iff_toNat_le, hsum]
    exact Nat.le_add_right _ _

/-- The height that was owed is noted. -/
theorem of_height {m : Milestone} {new : UInt64} (h : Ledger before w (.unnoted new) other)
    (hm : m.height? = some new) : Ledger before (w.note (.marked m)) .clear other := by
  have hheights : heights (w.note (.marked m)) = new :: heights w := by
    rw [heights_marked, hm]
    rfl
  have hlast := h.lastBlock
  refine ⟨?_, h.blocks⟩
  rw [hheights, List.cons_append, highest_cons]
  simp only [Debt.seen] at hlast ⊢
  calc w.counters.lastBlock.toNat
      = max (highest (heights w ++ before)) (max new.toNat other.seen) := hlast
    _ = max (max new.toNat (highest (heights w ++ before))) (max 0 other.seen) := by omega

/-- Accesses that have nothing to do with blocks leave the ledger alone. -/
theorem of_spares (h : Ledger before w debt other) {a : Stats.Access} (ha : Debt.spares a)
    (hw' : w' = { w with counters := (a.apply w.counters).2 }.note (.counted a)) :
    Ledger before w' debt other ∧ Rises w w' := by
  have hheights : heights w' = heights w := by rw [hw']; rfl
  have hkept : w'.counters.lastBlock = w.counters.lastBlock ∧
      w'.counters.blocksObserved = w.counters.blocksObserved := by
    rw [hw']
    cases a with
    | load c => cases c <;> exact ⟨rfl, rfl⟩
    | add c amount =>
        cases c with
        | lastBlock => exact absurd rfl ha.1
        | blocksObserved => exact absurd rfl ha.2
        | _ => exact ⟨rfl, rfl⟩
    | raise c value =>
        cases c with
        | lastBlock => exact absurd rfl ha.1
        | blocksObserved => exact absurd rfl ha.2
        | _ => exact ⟨rfl, rfl⟩
  exact h.of_same hkept.1 hkept.2 hheights

/-- Every effect that a task is allowed keeps the ledger. -/
theorem of_perform {β : Type} {e : Effect activities β} {b : β} {host : Host activities}
    {token : Bool} (h : Ledger before w debt other) (he : debt.allows e)
    (hperform : w.perform host token e = .value b w') :
    Ledger before w' (debt.next e b) other ∧ Rises w w' := by
  cases debt with
  | clear =>
      cases e with
      | access a =>
          cases hperform
          cases a with
          | raise c value =>
              cases c with
              | lastBlock => exact h.of_raise value rfl
              | total => exact h.of_spares (a := .raise .total value) he rfl
              | successful => exact h.of_spares (a := .raise .successful value) he rfl
              | failed => exact h.of_spares (a := .raise .failed value) he rfl
              | blocksObserved => exact absurd rfl he.2
          | add c amount => exact h.of_spares (a := .add c amount) he rfl
          | load c => exact h.of_spares (a := .load c) he rfl
      | mark m =>
          cases hperform
          refine h.of_same rfl rfl ?_
          rw [heights_marked, show m.height? = none from he]
          rfl
      | draw d =>
          simp only [World.perform] at hperform
          split at hperform
          · cases hperform
            exact h.of_same rfl rfl rfl
          · cases hperform
          · cases hperform
      | log level text => cases hperform; exact h.of_same rfl rfl rfl
      | isCancelled => cases hperform; exact ⟨h, rises_refl w⟩
      | checkpoint => cases hperform; exact ⟨h, rises_refl w⟩
      | cancel => cases hperform; exact h.of_same rfl rfl rfl
      | clock => cases hperform; exact ⟨h, rises_refl w⟩
      | uptime => cases hperform; exact ⟨h, rises_refl w⟩
  | unpaid delta new =>
      cases e with
      | access a =>
          obtain rfl : a = .add .blocksObserved delta := he
          cases hperform
          exact h.of_add rfl
      | _ => exact he.elim
  | unnoted new =>
      cases e with
      | mark m =>
          cases hperform
          exact ⟨h.of_height he, UInt64.le_refl _, UInt64.le_refl _⟩
      | _ => exact he.elim

/-- Every step of a task that notes its observations keeps the ledger. -/
theorem of_advance {α : Type} {host : Host activities} {token : Bool}
    {s s' : Strand activities α} (h : Ledger before w debt other) (hs : s.Obeys observing debt)
    (hstep : s.advance host token w = some (w', s')) :
    ∃ debt', s'.Obeys observing debt' ∧ Ledger before w' debt' other ∧ Rises w w' := by
  have hsame : ∀ {w w' : World activities}, w'.counters = w.counters → w'.marks = w.marks →
      Ledger before w .clear other → Ledger before w' .clear other ∧ Rises w w' := by
    intro w w' hcounters hmarks h
    refine h.of_same ?_ ?_ ?_
    · rw [hcounters]
    · rw [hcounters]
    · rw [heights, hmarks, heights]
  rcases Strand.obeys_of_advance
      (R := fun w w' debt' =>
        Ledger before w debt other → Ledger before w' debt' other ∧ Rises w w')
      (fun he hperform h => h.of_perform he hperform)
      (by rintro rfl w h; exact ⟨h, rises_refl w⟩)
      (by rintro rfl β what w h; exact hsame (by simp) (by simp) h)
      (by
        rintro rfl β pending w w' hbegun h
        rcases hbegun h with ⟨hledger, hrises⟩
        rcases hsame (w'.counters_deliver pending) (w'.marks_deliver pending) hledger with
          ⟨hkept, -⟩
        refine ⟨hkept, ?_⟩
        simpa only [Rises, World.counters_deliver] using hrises)
      hs hstep with ⟨debt', hobeys, hkept⟩
  exact ⟨debt', hobeys, hkept h⟩

/-- Without debts the blocks observed are as many as the watermark says, and that is the greatest
height. -/
theorem settled (h : Ledger before w .clear .clear) :
    w.counters.lastBlock.toNat = highest (heights w ++ before) ∧
      w.counters.blocksObserved = w.counters.lastBlock := by
  refine ⟨?_, UInt64.toNat_inj.1 h.blocks⟩
  simpa only [Debt.seen, Nat.max_zero, Nat.zero_max] using h.lastBlock

end Ledger

/-! ## Polls and the watch -/

/-- What a measurement leaves to be noted. -/
def Measured : Except Error Report → Debt → Prop
  | .ok report, debt => debt = .unnoted report.height
  | .error _, debt => debt = .clear

theorem obeys_observe (height : UInt64) :
    (observe height).Obeys observing (fun _ debt => debt = .unnoted height) .clear := by
  refine ⟨trivial, fun before => ?_⟩
  change Obeys observing (ite (before < height) _ _) _
    (ite (before < height) (Debt.unpaid (height - before) height) (Debt.unnoted height))
  by_cases hnew : before < height
  · simp only [hnew, if_true]
    exact ⟨rfl, fun _ => rfl⟩
  · simp only [hnew, if_false]
    exact rfl

theorem obeys_ask (call : Rpc.Call) :
    (ask call : Activity (Option Rpc.Response)).Obeys observing (atRest observing) .clear :=
  ⟨rfl, fun _ => rfl⟩

theorem obeys_isAlive (endpoint : Endpoint) :
    (isAlive endpoint).Obeys observing (atRest observing) .clear :=
  obeys_after (obeys_ask _) fun _ => rfl

theorem obeys_measure (n : Network) : (measure n).Obeys observing Measured .clear := by
  refine obeys_after (obeys_isAlive n.validator) ?_
  intro validatorUp
  refine obeys_after (obeys_isAlive n.sequencer) ?_
  intro sequencerUp
  refine obeys_after (obeys_ask _) ?_
  intro answer
  cases height answer with
  | ok height =>
      refine obeys_bind (obeys_observe height) ?_
      rintro _ debt rfl
      exact rfl
  | error cause => exact rfl

/-- A poll is free of debt in the end. -/
theorem obeys_poll (n : Network) : (poll n).Obeys observing (atRest observing) .clear := by
  refine obeys_bind (obeys_measure n) ?_
  intro outcome debt h
  cases outcome with
  | ok report =>
      obtain rfl : debt = .unnoted report.height := h
      exact ⟨rfl, fun _ => rfl⟩
  | error cause =>
      obtain rfl : debt = .clear := h
      exact ⟨rfl, fun _ => rfl⟩

theorem neutral_checkpoint : observing.neutral.effect (.checkpoint : Effect activities Bool) :=
  ⟨trivial, fun _ => rfl⟩

theorem obeys_log (level : Level) (text : String) :
    (log level text : Activity Unit).Obeys observing (atRest observing) .clear :=
  ⟨trivial, fun _ => rfl⟩

theorem obeys_isCancelled :
    (isCancelled : Activity Bool).Obeys observing (atRest observing) .clear :=
  ⟨trivial, fun _ => rfl⟩

theorem obeys_sleep (d : Duration) :
    (sleepOrCancelled d : Activity Bool).Obeys observing (atRest observing) .clear :=
  obeys_of_within (within_sleepOrCancelled neutral_checkpoint ⟨trivial, fun _ => rfl⟩ trivial)

theorem obeys_watchTurn (n : Network) (w : Config.Watch) :
    (watchTurn n w).Obeys observing (atRest observing) .clear := by
  refine obeys_after obeys_isCancelled ?_
  intro token
  cases token with
  | true => exact rfl
  | false =>
      refine obeys_after (obeys_untilCancelled neutral_checkpoint (obeys_poll n)) ?_
      intro outcome
      cases outcome with
      | none => exact rfl
      | some outcome =>
          have hrecord : (record w outcome).Within observing.neutral :=
            within_record (L := observing.neutral) (fun _ _ => ⟨trivial, fun _ => rfl⟩) w outcome
          refine obeys_after (obeys_of_within hrecord) ?_
          intro pause
          refine obeys_after (obeys_sleep pause) ?_
          intro token
          cases token with
          | true => exact rfl
          | false => exact rfl

theorem obeys_watch (n : Network) (w : Config.Watch) :
    (watch n w).Obeys observing (atRest observing) .clear :=
  obeys_iterate fun _ => obeys_watchTurn n w

/-! ## The generation -/

theorem obeys_check (n : Network) : (check n).Obeys observing (atRest observing) .clear := by
  refine obeys_after (obeys_poll n) ?_
  intro outcome
  cases outcome with
  | ok report => exact rfl
  | error cause => exact obeys_after (obeys_log _ _) fun _ => rfl

theorem generates_observing (p : Plan) : Generates observing.neutral p where
  total := ⟨⟨nofun, nofun⟩, fun _ => rfl⟩
  successful := ⟨⟨nofun, nofun⟩, fun _ => rfl⟩
  failed := ⟨⟨nofun, nofun⟩, fun _ => rfl⟩
  log := fun _ _ => ⟨trivial, fun _ => rfl⟩
  submitting := ⟨rfl, fun _ => rfl⟩
  submitted := fun _ => ⟨rfl, fun _ => rfl⟩
  checkpoint := neutral_checkpoint
  ask := fun _ => trivial
  load := fun _ => ⟨trivial, fun _ => rfl⟩
  isCancelled := ⟨trivial, fun _ => rfl⟩
  clock := ⟨trivial, fun _ => rfl⟩
  uptime := ⟨trivial, fun _ => rfl⟩
  rolled := fun _ => ⟨rfl, fun _ => rfl⟩
  burstEnded := fun _ => ⟨rfl, fun _ => rfl⟩
  paced := fun _ => ⟨rfl, fun _ => rfl⟩
  generate := ⟨trivial, fun _ => rfl⟩
  roll := fun _ _ => ⟨trivial, fun _ => rfl⟩
  pause := ⟨trivial, fun _ => rfl⟩
  timer := fun _ => trivial
  loops := trivial

namespace Plan

theorem obeys_readinessTurn (p : Plan) :
    p.readinessTurn.Obeys observing (atRest observing) .clear := by
  refine obeys_after obeys_isCancelled ?_
  intro token
  cases token with
  | true => exact rfl
  | false =>
      refine obeys_after (obeys_untilCancelled neutral_checkpoint (obeys_check p.network)) ?_
      intro report
      cases report with
      | none => exact rfl
      | some report =>
          dsimp only
          split
          · exact obeys_after (obeys_log _ _) fun _ => rfl
          · refine obeys_after (obeys_sleep _) ?_
            intro token
            cases token with
            | true => exact rfl
            | false => exact rfl

theorem obeys_run (p : Plan) : p.run.Obeys observing (atRest observing) .clear := by
  have hready : p.awaitReady.Obeys observing (atRest observing) .clear :=
    obeys_after (obeys_log _ _) fun _ => obeys_iterate fun _ => p.obeys_readinessTurn
  refine obeys_after hready ?_
  intro ready
  cases ready with
  | false => exact rfl
  | true =>
      refine obeys_after ⟨trivial, fun _ => rfl⟩ fun now => obeys_iterate fun s => ?_
      exact obeys_of_within ((generates_observing p).within_turn s)

end Plan
end Activity
end TxWorkload
