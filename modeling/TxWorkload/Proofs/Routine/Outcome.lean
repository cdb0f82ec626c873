import TxWorkload.Proofs.Routine.Course

/-!
# Outcome — what a routine by itself comes to

A routine comes to a result in another world if its steps lead there. There is at most one result,
and it is put together from what the parts of the routine come to: effects, lines that are written,
waits, and what is left out once the run is cancelled.
-/

namespace TxWorkload
namespace Routine

variable {S : Signature} {α β : Type} {host : Host S} {w w₁ w' : World S}

/-! ## Results -/

/-- Whether the steps of a routine by itself lead to a result and another world. -/
def ComesTo (host : Host S) (p : Routine S α) (w : World S) (a : α) (w' : World S) : Prop :=
  ∃ n, Solo.run host n (Solo.start w p) = ⟨w', .active (.done a)⟩

theorem comesTo_iff {p : Routine S α} {a : α} :
    p.ComesTo host w a w' ↔ ∃ deeds, p.Evaluates host w deeds a w' := by
  constructor
  · rintro ⟨n, hn⟩
    have hresult : (Solo.run host n (Solo.start w p)).strand.result? = some a := by
      rw [hn]
      rfl
    have h := Solo.evaluates_of_run hresult
    rw [hn] at h
    exact ⟨_, h⟩
  · rintro ⟨deeds, h⟩
    rcases Solo.exists_run_of_evaluates h with ⟨n, hn, -⟩
    exact ⟨n, hn⟩

theorem exists_comesTo_of_result {p : Routine S α} {a : α} {n : Nat}
    (h : (Solo.run host n (Solo.start w p)).strand.result? = some a) :
    p.ComesTo host w a (Solo.run host n (Solo.start w p)).world :=
  ⟨n, Solo.eq_of_result h⟩

/-- A run that has come to a result stays there. -/
theorem run_of_comesTo {p : Routine S α} {a : α} {n m : Nat}
    (h : Solo.run host n (Solo.start w p) = ⟨w', .active (.done a)⟩) (hle : n ≤ m) :
    Solo.run host m (Solo.start w p) = ⟨w', .active (.done a)⟩ := by
  rcases Nat.exists_eq_add_of_le hle with ⟨k, rfl⟩
  rw [Solo.run_add, h]
  exact Solo.run_of_step_eq_none Solo.step_done k

/-- There is one way to go on only, so there is one result only. -/
theorem ComesTo.unique {p : Routine S α} {a b : α} {w'' : World S} (h : p.ComesTo host w a w')
    (h' : p.ComesTo host w b w'') : a = b ∧ w' = w'' := by
  rcases h with ⟨n, hn⟩
  rcases h' with ⟨m, hm⟩
  -- After as many steps as the longer run takes, both have come to their results.
  have hboth := (run_of_comesTo hn (Nat.le_max_left n m)).symm.trans
    (run_of_comesTo hm (Nat.le_max_right n m))
  cases hboth
  exact ⟨rfl, rfl⟩

/-! ## Composition -/

theorem comesTo_andThen {p : Routine S α} {k : α → Routine S β} {b : β} :
    (p.andThen k).ComesTo host w b w' ↔
      ∃ a w₁, p.ComesTo host w a w₁ ∧ (k a).ComesTo host w₁ b w' := by
  simp only [comesTo_iff]
  constructor
  · rintro ⟨deeds, h⟩
    rcases evaluates_andThen.1 h with ⟨a, w₁, before, after, hp, hk, -⟩
    exact ⟨a, w₁, ⟨before, hp⟩, after, hk⟩
  · rintro ⟨a, w₁, ⟨before, hp⟩, after, hk⟩
    exact ⟨before ++ after, evaluates_andThen.2 ⟨a, w₁, before, after, hp, hk, rfl⟩⟩

theorem comesTo_bind {p : Routine S α} {k : α → Routine S β} {b : β} :
    (p >>= k).ComesTo host w b w' ↔
      ∃ a w₁, p.ComesTo host w a w₁ ∧ (k a).ComesTo host w₁ b w' :=
  comesTo_andThen

theorem comesTo_pure {a a' : α} :
    (pure a : Routine S α).ComesTo host w a' w' ↔ a' = a ∧ w' = w := by
  rw [comesTo_iff]
  constructor
  · rintro ⟨deeds, -, h⟩
    exact h
  · intro h
    exact ⟨[], rfl, h⟩

theorem comesTo_act {e : Effect S β} {b : β} :
    (act e).ComesTo host w b w' ↔ w.perform host w.cancelled e = .value b w' := by
  simp only [comesTo_iff, evaluates_act, exists_and_left, exists_eq, and_true]

/-- A draw takes words off the supply and does nothing else. -/
theorem comesTo_draw {d : Random.Draw α} {a : α} :
    (draw d).ComesTo host w a w' ↔
      ∃ rest, d w.supply = .value a rest ∧ w' = { w with supply := rest } := by
  refine comesTo_act.trans ?_
  simp only [World.perform]
  constructor
  · intro h
    split at h
    · rename_i hdrawn
      cases h
      exact ⟨_, hdrawn, rfl⟩
    · cases h
    · cases h
  · rintro ⟨rest, hdrawn, rfl⟩
    rw [hdrawn]

theorem comesTo_log {level : Level} {text : String} :
    (log level text).ComesTo host w () w' ↔ w' = w.note (.logged level text) := by
  refine comesTo_act.trans ?_
  constructor
  · rintro ⟨⟩
    rfl
  · rintro rfl
    rfl

theorem comesTo_mark {m : S.Mark} :
    (mark m).ComesTo host w () w' ↔ w' = w.note (.marked m) := by
  refine comesTo_act.trans ?_
  constructor
  · rintro ⟨⟩
    rfl
  · rintro rfl
    rfl

/-! ## Lines -/

/-- Write some log lines. -/
def write : List (Level × String) → Routine S Unit
  | [] => pure ()
  | (level, text) :: rest => do
      log level text
      write rest

/-- The world after some lines have been written. -/
def World.write (w : World S) : List (Level × String) → World S
  | [] => w
  | (level, text) :: rest => (w.note (.logged level text)).write rest

theorem comesTo_write {lines : List (Level × String)} :
    (write lines).ComesTo host w () w' ↔ w' = w.write lines := by
  induction lines generalizing w with
  | nil => exact comesTo_pure.trans (and_iff_right rfl)
  | cons line rest ih =>
      rw [write, comesTo_bind, World.write]
      constructor
      · rintro ⟨_, w₁, hlog, h⟩
        rw [comesTo_log.1 hlog] at h
        exact ih.1 h
      · intro h
        exact ⟨(), _, comesTo_log.2 rfl, ih.2 h⟩

/-- The requests that were sent, and when, latest first. -/
def World.sent (w : World S) : List (Nat × S.Request) :=
  w.journal.filterMap fun e =>
    match e.event with
    | .sent request => some (e.time, request)
    | _ => none

/-- Lines are all that is written. -/
theorem World.write_eq (w : World S) (lines : List (Level × String)) :
    ∃ journal, w.write lines = { w with journal } ∧
      (w.write lines).lines = lines.reverse ++ w.lines ∧ (w.write lines).sent = w.sent := by
  induction lines generalizing w with
  | nil => exact ⟨w.journal, rfl, rfl, rfl⟩
  | cons line rest ih =>
      rcases line with ⟨level, text⟩
      rcases ih (w.note (.logged level text)) with ⟨journal, hw, hlines, hsent⟩
      refine ⟨journal, hw, ?_, hsent⟩
      rw [World.write, hlines, World.lines_logged, List.reverse_cons, List.append_assoc]
      rfl

theorem World.now_write (w : World S) (lines : List (Level × String)) :
    (w.write lines).now = w.now := by
  rcases w.write_eq lines with ⟨journal, hw, -⟩
  rw [hw]

/-! ## Waits -/

theorem comesTo_await {what : Wait S β} {b : β} :
    (await what).ComesTo host w b w' ↔
      Awaited host w what w' ∧ b = (w.begin host what).2.answer := by
  simp only [comesTo_iff, evaluates_await, exists_and_left, exists_eq, and_true]

theorem comesTo_race {what : Wait S β} {next : Option β → Routine S α} {a : α} :
    (race what next).ComesTo host w a w' ↔
      ∃ answer w₁, Raced host w what answer w₁ ∧ (next answer).ComesTo host w₁ a w' := by
  simp only [comesTo_iff]
  constructor
  · rintro ⟨deeds, answer, w₁, rest, hraced, -, h⟩
    exact ⟨answer, w₁, hraced, rest, h⟩
  · rintro ⟨answer, w₁, hraced, rest, h⟩
    exact ⟨_, answer, w₁, rest, hraced, rfl, h⟩

/-- Both ways to look for a cancellation find it. -/
theorem comesTo_look {token : Bool} (look : Effect S Bool)
    (hlook : ∀ w : World S, w.perform host w.cancelled look = .value w.cancelled w) :
    (act look).ComesTo host w token w' ↔ token = w.cancelled ∧ w' = w := by
  rw [comesTo_act, hlook]
  constructor
  · rintro ⟨⟩
    exact ⟨rfl, rfl⟩
  · rintro ⟨rfl, rfl⟩
    rfl

theorem comesTo_isCancelled {token : Bool} :
    (isCancelled : Routine S Bool).ComesTo host w token w' ↔ token = w.cancelled ∧ w' = w :=
  comesTo_look .isCancelled fun _ => rfl

/-- What a cancelled run leaves out. -/
theorem comesTo_unlessCancelled {p : Routine S α} {a b : α} (look : Effect S Bool)
    (hlook : ∀ w : World S, w.perform host w.cancelled look = .value w.cancelled w) :
    (act look >>= fun token => if token = true then pure a else p).ComesTo host w b w' ↔
      (w.cancelled = true ∧ b = a ∧ w' = w) ∨ (w.cancelled = false ∧ p.ComesTo host w b w') := by
  simp only [comesTo_bind, comesTo_look look hlook]
  constructor
  · rintro ⟨token, w₁, ⟨htoken, hw₁⟩, h⟩
    rw [htoken, hw₁] at h
    cases hw : w.cancelled with
    | true =>
        rw [hw] at h
        exact .inl ⟨rfl, comesTo_pure.1 h⟩
    | false =>
        rw [hw] at h
        exact .inr ⟨rfl, h⟩
  · rintro (⟨hw, h⟩ | ⟨hw, h⟩)
    · refine ⟨_, _, ⟨rfl, rfl⟩, ?_⟩
      rw [hw]
      exact comesTo_pure.2 h
    · refine ⟨_, _, ⟨rfl, rfl⟩, ?_⟩
      rw [hw]
      exact h

theorem comesTo_unlessIsCancelled {p : Routine S α} {a b : α} :
    (isCancelled >>= fun token => if token = true then pure a else p).ComesTo host w b w' ↔
      (w.cancelled = true ∧ b = a ∧ w' = w) ∨ (w.cancelled = false ∧ p.ComesTo host w b w') :=
  comesTo_unlessCancelled .isCancelled fun _ => rfl

theorem comesTo_untilCancelled {p : Routine S α} {answer : Option α} :
    (untilCancelled p).ComesTo host w answer w' ↔
      (w.cancelled = true ∧ answer = none ∧ w' = w) ∨
        (w.cancelled = false ∧ p.guarded.ComesTo host w answer w') :=
  comesTo_unlessCancelled .checkpoint fun _ => rfl

end Routine
end TxWorkload
