import TxWorkload.Proofs.Routine.Conduct
import TxWorkload.Proofs.Routine.Record

/-!
# Solo — how a single routine gets on

A path leads from one state of a routine to a later one, with a property that holds all the way. A
wait that races against cancellation has one of three fates, which are decided when it begins: its
answer is delivered, it is cut off, or nothing ever happens.
-/

namespace TxWorkload
namespace Routine

variable {S : Signature} {α β : Type} {host : Host S}

namespace Solo

/-! ## Paths -/

/-- A number of steps from one state to another, with a property of all states on the way. -/
inductive Path (host : Host S) (P : Solo S α → Prop) : Solo S α → Solo S α → Prop
  | here {x : Solo S α} (h : P x) : Path host P x x
  | more {x y z : Solo S α} (h : P x) (hs : x.step host = some y) (hy : Path host P y z) :
      Path host P x z

/-- An effect that has a value is one step. -/
theorem step_perform {w w' : World S} {e : Effect S β} {b : β} {next : β → Routine S α}
    (he : w.perform host w.cancelled e = .value b w') :
    step host ⟨w, .active (.perform e next)⟩ = some ⟨w', .active (next b)⟩ := by
  simp only [step, Strand.advance, he]

namespace Path

variable {P : Solo S α → Prop} {x y z : Solo S α}

theorem trans (h : Path host P x y) (h' : Path host P y z) : Path host P x z := by
  induction h with
  | here _ => exact h'
  | more hx hs _ ih => exact .more hx hs (ih h')

theorem exists_run (h : Path host P x z) : ∃ n, run host n x = z := by
  induction h with
  | here _ => exact ⟨0, rfl⟩
  | more _ hs _ ih =>
      rcases ih with ⟨n, hn⟩
      exact ⟨n + 1, by rw [run, hs]; exact hn⟩

/-- A path to a state without a next one tells of every number of steps. -/
theorem holds_run (h : Path host P x z) (hz : z.step host = none) (n : Nat) :
    P (run host n x) := by
  induction h generalizing n with
  | here h =>
      cases n with
      | zero => exact h
      | succ n => rw [run, hz]; exact h
  | more hx hs _ ih =>
      cases n with
      | zero => exact hx
      | succ n => rw [run, hs]; exact ih hz n

end Path

theorem step_done {w : World S} {a : α} : step host ⟨w, .active (.done a)⟩ = none :=
  rfl

/-! ## Requests -/

/-- Whether the next step of a strand sends a request. -/
def asks : Strand S α → Bool
  | .active (.wait (.reply _) _) => true
  | .active (.race (.reply _) _) => true
  | _ => false

theorem past_of_advance {s s' : Strand S α} {token : Bool} {w w' : World S}
    (h : s.advance host token w = some (w', s')) (ha : asks s = false) : w'.past = w.past := by
  -- Of the waits only a request adds to the past, and beginning one is what asking means.
  cases Strand.advances_of_advance h with
  | value he => exact World.past_perform he
  | starve _ => rfl
  | abort _ => rfl
  | @answered _ _ what _ _ =>
      cases what with
      | reply request => cases ha
      | timer d => exact World.past_deliver _ _
  | @blocks _ _ what _ _ =>
      cases what with
      | reply request => cases ha
      | timer d => rfl
  | @won _ _ what _ _ =>
      cases what with
      | reply request => cases ha
      | timer d => exact World.past_deliver _ _
  | @races _ _ what _ _ =>
      cases what with
      | reply request => cases ha
      | timer d => rfl
  | turn => rfl
  | deliver _ => exact World.past_deliver _ _
  | lose _ => rfl
  | win _ _ => exact World.past_deliver _ _

/-- Only a step that asks adds a request. -/
theorem past_of_step {x y : Solo S α} (h : x.step host = some y) (ha : asks x.strand = false) :
    y.world.past = x.world.past := by
  unfold step at h
  split at h
  · rename_i w' s' hs
    cases h
    exact past_of_advance hs ha
  · split at h
    · cases h
    · rcases Option.map_eq_some_iff.1 h with ⟨moment, -, rfl⟩
      rfl

theorem run_succ (host : Host S) (n : Nat) (x : Solo S α) :
    run host (n + 1) x = ((run host n x).step host).getD (run host n x) := by
  induction n generalizing x with
  | zero =>
      rw [run, run]
      cases x.step host <;> rfl
  | succ n ih =>
      rw [run, run]
      cases hs : x.step host with
      | none => simp [hs]
      | some y => exact ih y

theorem past_run_succ {n : Nat} {x : Solo S α} (ha : asks (run host n x).strand = false) :
    (run host (n + 1) x).world.past = (run host n x).world.past := by
  rw [run_succ]
  cases hs : (run host n x).step host with
  | none => rfl
  | some y => exact past_of_step hs ha

/-! ## Fates of a wait -/

/-- The answer of a wait that begins at `m` is delivered at `m'`. An answer that takes no time comes
before any cancellation, and any other one only before it. -/
def Delivered (host : Host S) (m : Nat) (due : Option Nat) (m' : Nat) : Prop :=
  ∃ d, due = some d ∧ m' = max m d ∧ (m < d → ∀ t, host.cancelAt = some t → d < t)

/-- A wait that begins at `m` is cut off at `m'`. -/
def CutOff (host : Host S) (m : Nat) (due : Option Nat) (m' : Nat) : Prop :=
  ∃ t, host.cancelAt = some t ∧ m' = max m t ∧ ∀ d, due = some d → m < d ∧ t ≤ d

/-- A wait never ends. -/
def Stalled (host : Host S) (due : Option Nat) : Prop :=
  due = none ∧ host.cancelAt = none

theorem Delivered.le {m m' : Nat} {due : Option Nat} (h : Delivered host m due m') : m ≤ m' := by
  rcases h with ⟨d, -, rfl, -⟩
  exact Nat.le_max_left m d

theorem CutOff.le {m m' : Nat} {due : Option Nat} (h : CutOff host m due m') : m ≤ m' := by
  rcases h with ⟨t, -, rfl, -⟩
  exact Nat.le_max_left m t

theorem exists_fate (host : Host S) (m : Nat) (due : Option Nat) :
    (∃ m', Delivered host m due m') ∨ (∃ m', CutOff host m due m') ∨ Stalled host due := by
  cases due with
  | none =>
      cases hc : host.cancelAt with
      | none => exact .inr (.inr ⟨rfl, hc⟩)
      | some t => exact .inr (.inl ⟨_, t, hc, rfl, fun d hd => by cases hd⟩)
  | some d =>
      -- An answer that takes time has to come before the cancellation.
      by_cases hd : m < d
      · cases hc : host.cancelAt with
        | none => exact .inl ⟨_, d, rfl, rfl, fun _ t ht => by rw [hc] at ht; cases ht⟩
        | some t =>
            by_cases ht : d < t
            · refine .inl ⟨_, d, rfl, rfl, fun _ t' ht' => ?_⟩
              rw [hc] at ht'
              cases ht'
              exact ht
            · refine .inr (.inl ⟨_, t, hc, rfl, fun d' hd' => ?_⟩)
              cases hd'
              exact ⟨hd, Nat.le_of_not_lt ht⟩
      · exact .inl ⟨_, d, rfl, rfl, fun h => absurd h hd⟩

/-! ## Paths through a wait -/

section

variable {P : Solo S α → Prop} {w : World S} {what : Wait S β} {next : Option β → Routine S α}

/-- A state in the middle of a race: the wait has begun, time may have passed, and the routine may
have been cancelled. -/
def racing (host : Host S) (w : World S) (what : Wait S β) (next : Option β → Routine S α)
    (moment : Nat) (cancelled : Bool) : Solo S α where
  world := { (w.begin host what).1 with now := moment, cancelled }
  strand := .contested (w.begin host what).2 next

/-- The world in which an answer is delivered after some time. -/
def delivery (host : Host S) (w : World S) (what : Wait S β) (moment : Nat) : World S :=
  World.deliver { (w.begin host what).1 with now := moment, cancelled := false }
    (w.begin host what).2

theorem begun_eq (hw : w.cancelled = false) :
    { (w.begin host what).1 with now := w.now, cancelled := false } = (w.begin host what).1 := by
  cases what <;> simp only [World.begin, World.note, hw]

/-- A wait that does not end at once becomes a race. -/
theorem step_begin (hw : w.cancelled = false)
    (hd : ∀ d, (w.begin host what).2.due = some d → w.now < d) :
    step host ⟨w, .active (.race what next)⟩ = some (racing host w what next w.now false) := by
  have hended : (w.begin host what).1.hasEnded (w.begin host what).2 = false := by
    unfold World.hasEnded
    cases hdue : (w.begin host what).2.due with
    | none => rfl
    | some d => simpa using hd d hdue
  rw [racing, begun_eq hw]
  simp [step, Strand.advance, hended]

/-- While a race is undecided, time passes to what comes first. -/
theorem step_racing (hd : ∀ d, (w.begin host what).2.due = some d → w.now < d) :
    step host (racing host w what next w.now false) =
      ((w.begin host what).2.due.toList ++ (host.cancelAt.map (Nat.max w.now)).toList).min?.map
        fun m' => racing host w what next m' (host.cancelAt.any fun t => decide (t ≤ m')) := by
  have hended : World.hasEnded { (w.begin host what).1 with now := w.now, cancelled := false }
      (w.begin host what).2 = false := by
    unfold World.hasEnded
    cases hdue : (w.begin host what).2.due with
    | none => rfl
    | some d => simpa using hd d hdue
  have hdues : ((Strand.contested (w.begin host what).2 next).due?.map Prod.fst).toList =
      (w.begin host what).2.due.toList := by
    cases hdue : (w.begin host what).2.due <;> simp [Strand.due?, hdue]
  unfold step racing
  simp only [Strand.advance, hended, Strand.isOver, hdues, World.nextMoment, Bool.false_eq_true,
    if_false]
  congr 1
  funext m'
  cases hc : host.cancelAt <;> simp [World.passTo, hc]

/-- Once the routine is cancelled, the race is lost. -/
theorem step_lost {m' : Nat} :
    step host (racing host w what next m' true) =
      some ⟨{ (w.begin host what).1 with now := m', cancelled := true }, .active (next none)⟩ := by
  simp [step, racing, Strand.advance]

theorem step_won {m' d : Nat} (hdue : (w.begin host what).2.due = some d) (hd : d ≤ m') :
    step host (racing host w what next m' false) =
      some ⟨delivery host w what m', .active (next (some (w.begin host what).2.answer))⟩ := by
  have hended : World.hasEnded { (w.begin host what).1 with now := m', cancelled := false }
      (w.begin host what).2 = true := by
    simp [World.hasEnded, hdue, hd]
  simp only [step, racing, Strand.advance, hended, Bool.false_eq_true, if_false, if_true, delivery]

/-- In a race that is won, time passes to the end of the wait. -/
theorem step_inTime {d : Nat} (hdue : (w.begin host what).2.due = some d) (hlt : w.now < d)
    (hcancel : ∀ t, host.cancelAt = some t → d < t) :
    step host (racing host w what next w.now false) = some (racing host w what next d false) := by
  have hlate : ∀ d', (w.begin host what).2.due = some d' → w.now < d' := by
    rw [hdue]
    rintro d' ⟨⟩
    exact hlt
  rw [step_racing hlate, hdue]
  cases hc : host.cancelAt with
  | none => rfl
  | some t =>
      have ht := hcancel t hc
      have hmin : [d, Nat.max w.now t].min? = some d :=
        congrArg some (Nat.min_eq_left (Nat.le_trans (Nat.le_of_lt ht) (Nat.le_max_right _ _)))
      have hnot : decide (t ≤ d) = false := decide_eq_false (Nat.not_le.2 ht)
      simp only [Option.toList_some, Option.map_some, List.cons_append, List.nil_append, hmin,
        Option.any_some, hnot]

/-- In a race that is lost, time passes to the cancellation. -/
theorem step_cutOff {t : Nat} (hc : host.cancelAt = some t)
    (hdue : ∀ d, (w.begin host what).2.due = some d → w.now < d ∧ t ≤ d) :
    step host (racing host w what next w.now false) =
      some (racing host w what next (max w.now t) true) := by
  have hreached : decide (t ≤ max w.now t) = true := decide_eq_true (Nat.le_max_right _ _)
  rw [step_racing fun d h => (hdue d h).1, hc]
  cases hd : (w.begin host what).2.due with
  | none => exact congrArg (fun b => some (racing host w what next (max w.now t) b)) hreached
  | some d =>
      rcases hdue d hd with ⟨hlt, hle⟩
      have hmin : [d, Nat.max w.now t].min? = some (max w.now t) :=
        congrArg some (Nat.min_eq_right (Nat.max_le.2 ⟨Nat.le_of_lt hlt, hle⟩))
      simp only [Option.toList_some, Option.map_some, List.cons_append, List.nil_append, hmin,
        Option.any_some, hreached]

/-- A wait whose answer is delivered leads on to the answer. -/
theorem Path.won (m' : Nat) {z : Solo S α} (hw : w.cancelled = false)
    (hd : Delivered host w.now (w.begin host what).2.due m')
    (hstart : P ⟨w, .active (.race what next)⟩)
    (hracing : ∀ m c, w.now ≤ m → P (racing host w what next m c))
    (hz : Path host P ⟨delivery host w what m',
      .active (next (some (w.begin host what).2.answer))⟩ z) :
    Path host P ⟨w, .active (.race what next)⟩ z := by
  rcases hd with ⟨d, hdue, rfl, hbefore⟩
  by_cases hlt : w.now < d
  -- The answer takes time: a race begins, time passes, and the answer wins.
  · have hlate : ∀ d', (w.begin host what).2.due = some d' → w.now < d' := by
      rw [hdue]
      rintro d' ⟨⟩
      exact hlt
    rw [Nat.max_eq_right (Nat.le_of_lt hlt)] at hz
    exact .more hstart (step_begin hw hlate) (.more (hracing _ _ (Nat.le_refl _))
      (step_inTime hdue hlt (hbefore hlt))
      (.more (hracing d false (Nat.le_of_lt hlt)) (step_won hdue (Nat.le_refl d)) hz))
  · have hle := Nat.le_of_not_lt hlt
    have hended : (w.begin host what).1.hasEnded (w.begin host what).2 = true := by
      simp [World.hasEnded, hdue, hle]
    rw [Nat.max_eq_left hle, delivery, begun_eq hw] at hz
    exact .more hstart (by simp only [Solo.step, Strand.advance, hended, if_true]) hz

/-- A wait that is cut off leads on without an answer. -/
theorem Path.lost (m' : Nat) {z : Solo S α} (hw : w.cancelled = false)
    (hd : CutOff host w.now (w.begin host what).2.due m')
    (hstart : P ⟨w, .active (.race what next)⟩)
    (hracing : ∀ m c, w.now ≤ m → P (racing host w what next m c))
    (hz : Path host P ⟨{ (w.begin host what).1 with now := m', cancelled := true },
      .active (next none)⟩ z) :
    Path host P ⟨w, .active (.race what next)⟩ z := by
  rcases hd with ⟨t, hc, rfl, hdue⟩
  have hlate := fun d h => (hdue d h).1
  exact .more hstart (step_begin hw hlate) (.more (hracing _ _ (Nat.le_refl _))
    (step_cutOff hc hdue) (.more (hracing _ true (Nat.le_max_left _ _)) step_lost hz))

/-- A wait that never ends is the last step. -/
theorem Path.stalled (hw : w.cancelled = false)
    (hd : Stalled host (w.begin host what).2.due)
    (hstart : P ⟨w, .active (.race what next)⟩)
    (hracing : ∀ m c, w.now ≤ m → P (racing host w what next m c)) :
    Path host P ⟨w, .active (.race what next)⟩ (racing host w what next w.now false) ∧
      step host (racing host w what next w.now false) = none := by
  rcases hd with ⟨hdue, hc⟩
  have hlate : ∀ d, (w.begin host what).2.due = some d → w.now < d := by
    rw [hdue]
    rintro d ⟨⟩
  refine ⟨.more hstart (step_begin hw hlate) (.here (hracing _ _ (Nat.le_refl _))), ?_⟩
  rw [step_racing hlate, hdue, hc]
  rfl

end

end Solo
end Routine
end TxWorkload
