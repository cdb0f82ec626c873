import TxWorkload.Proofs.Routine.Deadline
import TxWorkload.Proofs.Workload.Interleaving

/-!
# Timeline — the steps of a run in time

A step of a run is a step of one of its strands, or time passes while no strand can go on. So time
never goes back, a cancellation is for good, calls are only added, and whatever the journal tells
of has happened by now.
-/

namespace TxWorkload

/-! ## Strands -/

namespace Routine

variable {S : Signature} {α β : Type} {host : Host S} {token : Bool}

namespace World

/-- Whether everything in the journal has happened by now. -/
def Recorded (w : World S) : Prop :=
  ∀ e ∈ w.journal, e.time ≤ w.now

variable {w w' : World S}

theorem recorded_note (hw : w.Recorded) (e : Event S) : (w.note e).Recorded := by
  intro entry hentry
  rcases List.mem_cons.1 hentry with rfl | hentry
  · exact Nat.le_refl _
  · exact hw entry hentry

theorem recorded_perform {e : Effect S β} {b : β} (hw : w.Recorded)
    (h : w.perform host token e = .value b w') : w'.Recorded := by
  cases alters_of_perform h with
  | looks => exact hw
  | notes e => exact recorded_note hw e
  | counts counters e => exact recorded_note (w := { w with counters }) hw e
  | draws supply => exact hw
  | cancels => exact hw

theorem recorded_begin (hw : w.Recorded) (what : Wait S β) : (w.begin host what).1.Recorded := by
  cases what with
  | reply request =>
      exact recorded_note (w := { w with past := _, tickets := _ }) hw _
  | timer d => exact hw

theorem recorded_deliver (hw : w.Recorded) (pending : Pending β) :
    (w.deliver pending).Recorded := by
  unfold Recorded
  rw [journal_deliver, now_deliver]
  exact hw

end World

namespace Strand

variable {w w' : World S} {s s' : Strand S α}

theorem recorded_of_advance (hw : w.Recorded) (hs : s.advance host token w = some (w', s')) :
    w'.Recorded :=
  relates_of_step (R := fun w w' => w.Recorded → w'.Recorded) (fun _ => id) (fun h h' => h' ∘ h)
    (fun h hw => World.recorded_perform hw h) (fun what _ hw => World.recorded_begin hw what)
    (fun pending _ hw => World.recorded_deliver hw pending) hs hw

theorem past_suffix_begin (host : Host S) (what : Wait S β) (w : World S) :
    w.past <:+ (w.begin host what).1.past := by
  cases what with
  | reply request => exact List.suffix_cons request w.past
  | timer d => exact List.suffix_refl _

/-- Calls are only added. -/
theorem past_suffix_of_advance (hs : s.advance host token w = some (w', s')) :
    w.past <:+ w'.past :=
  relates_of_step (R := fun w w' => w.past <:+ w'.past) (fun w => List.suffix_refl w.past)
    List.IsSuffix.trans (fun h => World.past_perform h ▸ List.suffix_refl _)
    (fun what w => past_suffix_begin host what w)
    (fun pending w => w.past_deliver pending ▸ List.suffix_refl _) hs

end Strand
end Routine

namespace Workload

open Routine (Host Strand World)

namespace Run

variable {w : Workload} {host : Host activities} {x y : Run}

/-! ## Steps -/

/-- What a step of a run does to its world. -/
inductive Shifts (host : Host activities) : Run → World activities → Prop
  | same {x : Run} : Shifts host x x.world
  | goes {x : Run} {α : Type} {s s' : Strand activities α} {token : Bool}
      {world' : World activities} (h : s.advance host token x.world = some (world', s')) :
      Shifts host x world'
  | passes {world : World activities} {generation : Strand activities Nat}
      {watch : Strand activities Unit} {turn : Turn} {moment : Nat}
      (hg : generation.advance host world.cancelled world = none)
      (hover : generation.isOver = false)
      (hw : watch.advance host world.cancelled world = none)
      (hm : world.nextMoment host ((generation.due?.map Prod.fst).toList ++
        (watch.due?.map Prod.fst).toList) = some moment) :
      Shifts host (.working world generation watch turn) (world.passTo host moment)

theorem shifts_of_step (h : x.step w host = some y) : Shifts host x y.world := by
  cases x with
  | opening world banner =>
      simp only [step] at h
      split at h
      · rename_i hs
        cases h
        exact .goes hs
      · cases h
        exact .same
  | working world generation watch turn =>
      simp only [step] at h
      split at h
      · cases h
        exact .same
      · split at h
        · cases h
        · rename_i hover
          cases proceeds_of_proceed h with
          | generation hs _ _ => exact .goes hs
          | watch hs _ => exact .goes hs
          | pass hg hw hm => exact .passes hg (Bool.eq_false_iff.2 hover) hw hm
  | judging world line watch =>
      simp only [step] at h
      split at h
      · rename_i hs
        cases h
        exact .goes hs
      · cases h
        exact .same
  | stopping world watch =>
      simp only [step] at h
      split at h
      · rename_i hs
        cases h
        exact .goes hs
      · cases h
        exact .same
  | closing world last =>
      rcases Option.map_eq_some_iff.1 h with ⟨⟨world', last'⟩, hs, rfl⟩
      exact .goes hs

theorem le_of_step (h : x.step w host = some y) : x.world.now ≤ y.world.now := by
  have hshift := shifts_of_step h
  generalize y.world = world' at hshift
  cases hshift with
  | same => exact Nat.le_refl _
  | goes hs => exact Nat.le_of_eq (Strand.elapses_of_advance 0 hs).2.symm
  | passes hg _ hw hm => exact le_of_pass hg hw hm

theorem cancelled_of_step (h : x.step w host = some y) (hx : x.world.cancelled = true) :
    y.world.cancelled = true := by
  have hshift := shifts_of_step h
  generalize y.world = world' at hshift
  cases hshift with
  | same => exact hx
  | goes hs => exact (Strand.elapses_of_advance 0 hs).1.cancelled hx
  | passes _ _ _ _ => exact World.cancelled_passTo _ _ _ hx

theorem recorded_of_step (h : x.step w host = some y) (hx : x.world.Recorded) :
    y.world.Recorded := by
  have hle := le_of_step h
  have hshift := shifts_of_step h
  generalize y.world = world' at hshift hle
  cases hshift with
  | same => exact hx
  | goes hs => exact Strand.recorded_of_advance hx hs
  | passes _ _ _ _ => exact fun e he => Nat.le_trans (hx e he) hle

theorem past_suffix_of_step (h : x.step w host = some y) : x.world.past <:+ y.world.past := by
  have hshift := shifts_of_step h
  generalize y.world = world' at hshift
  cases hshift with
  | same => exact List.suffix_refl _
  | goes hs => exact Strand.past_suffix_of_advance hs
  | passes _ _ _ _ => exact List.suffix_refl _

/-- Whether a run is past its generation. -/
def Late : Run → Prop
  | .opening _ _ => False
  | .working _ _ _ _ => False
  | .judging _ _ _ => True
  | .stopping _ _ => True
  | .closing _ _ => True

theorem late_of_step (hx : x.Late) (h : x.step w host = some y) : y.Late := by
  cases x with
  | opening world banner => exact hx.elim
  | working world generation watch turn => exact hx.elim
  | judging world line watch =>
      simp only [step] at h
      split at h
      · cases h
        exact trivial
      · cases h
        exact trivial
  | stopping world watch =>
      simp only [step] at h
      split at h
      · cases h
        exact trivial
      · cases h
        exact trivial
  | closing world last =>
      rcases Option.map_eq_some_iff.1 h with ⟨r, -, rfl⟩
      exact trivial

theorem late_of_result {s : Stats.Snapshot} (h : x.result? = some s) : x.Late := by
  cases x with
  | closing world last => exact trivial
  | opening world banner => cases h
  | working world generation watch turn => cases h
  | judging world line watch => cases h
  | stopping world watch => cases h

/-! ## Runs -/

theorem run_add (m n : Nat) (x : Run) :
    run w host (m + n) x = run w host n (run w host m x) := by
  induction m generalizing x with
  | zero => rw [Nat.zero_add, run]
  | succ m ih =>
      rw [Nat.succ_add, run, run]
      cases hs : x.step w host with
      | some y => exact ih y
      | none =>
          cases n with
          | zero => rfl
          | succ n => rw [run, hs]

theorem run_of_step_eq_none (h : x.step w host = none) (n : Nat) : run w host n x = x := by
  cases n with
  | zero => rfl
  | succ n => rw [run, h]

theorem run_one (h : x.step w host = some y) (n : Nat) :
    run w host (n + 1) x = run w host n y := by
  rw [run, h]

theorem step_of_result {s : Stats.Snapshot} (h : x.result? = some s) : x.step w host = none := by
  cases x with
  | closing world last =>
      cases last with
      | active p =>
          cases p with
          | done a => rfl
          | perform e next => cases h
          | wait what next => cases h
          | race what next => cases h
          | loop s body next => cases h
      | blocked pending next => cases h
      | contested pending next => cases h
      | starved => cases h
      | aborted cause => cases h
  | opening world banner => cases h
  | working world generation watch turn => cases h
  | judging world line watch => cases h
  | stopping world watch => cases h

/-- A run that comes to a stand comes to the same one from any state on the way. -/
theorem run_run_of_step_eq_none {m : Nat} (h : (run w host m x).step w host = none) (n : Nat) :
    run w host m (run w host n x) = run w host m x := by
  rw [← run_add, Nat.add_comm, run_add, run_of_step_eq_none h]

/-- There is only one state in which a run stands still. -/
theorem run_eq_of_step_eq_none {m n : Nat} (hm : (run w host m x).step w host = none)
    (hn : (run w host n x).step w host = none) : run w host m x = run w host n x :=
  (run_run_of_step_eq_none hm n).symm.trans (run_of_step_eq_none hn m)

/-- What every step up to a moment preserves, a run up to that moment preserves. -/
theorem holds_run_until {P : Run → Prop} {moment : Nat}
    (hstep : ∀ x y, P x → x.step w host = some y → y.world.now ≤ moment → P y)
    (n : Nat) {x : Run} (hx : P x) (hn : (run w host n x).world.now ≤ moment) :
    P (run w host n x) := by
  induction n with
  | zero => exact hx
  | succ n ih =>
      rw [run_add] at hn ⊢
      cases hs : (run w host n x).step w host with
      | none =>
          rw [run_of_step_eq_none hs] at hn ⊢
          exact ih hn
      | some y =>
          rw [run_one hs] at hn ⊢
          exact hstep _ y (ih (Nat.le_trans (le_of_step hs) hn)) hs hn

/-- What every step preserves, a run preserves. -/
theorem holds_run {P : Run → Prop} (hstep : ∀ x y, P x → x.step w host = some y → P y)
    (hx : P x) (n : Nat) : P (run w host n x) :=
  holds_run_until (fun x y hx hs _ => hstep x y hx hs) n hx (Nat.le_refl _)

theorem le_run (w : Workload) (host : Host activities) (n : Nat) (x : Run) :
    x.world.now ≤ (run w host n x).world.now :=
  holds_run (P := fun y => x.world.now ≤ y.world.now)
    (fun _ _ hx hs => Nat.le_trans hx (le_of_step hs)) (Nat.le_refl _) n

theorem cancelled_run (w : Workload) (host : Host activities) (n : Nat)
    (hx : x.world.cancelled = true) : (run w host n x).world.cancelled = true :=
  holds_run (P := fun y => y.world.cancelled = true)
    (fun _ _ hx hs => cancelled_of_step hs hx) hx n

theorem recorded_run (n : Nat) (hx : x.world.Recorded) : (run w host n x).world.Recorded :=
  holds_run (P := fun y => y.world.Recorded) (fun _ _ hx hs => recorded_of_step hs hx) hx n

theorem past_suffix_run (w : Workload) (host : Host activities) (n : Nat) (x : Run) :
    x.world.past <:+ (run w host n x).world.past :=
  holds_run (P := fun y => x.world.past <:+ y.world.past)
    (fun _ _ hx hs => hx.trans (past_suffix_of_step hs)) (List.suffix_refl _) n

end Run
end Workload
end TxWorkload
