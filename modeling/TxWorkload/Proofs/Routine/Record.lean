import TxWorkload.Routine.Cancellation
import TxWorkload.Routine.Strand

/-!
# Record — what a journal tells of

The lines that were written and the marks that were made are read off the journal, latest first.
Effects alter a world in a few ways only, and only a draw may have no value. Waits and the passing
of time leave lines, marks and counters alone.
-/

namespace TxWorkload
namespace Routine

variable {S : Signature} {β : Type}

/-! ## Guards -/

theorem guarded_await (what : Wait S β) : (await what).guarded = .race what .done := by
  rw [await, guarded]
  congr 1
  funext b
  cases b <;> rfl

/-! ## Views -/

/-- The line of an event, if it wrote one. -/
def Event.line? : Event S → Option (Level × String)
  | .logged level text => some (level, text)
  | _ => none

/-- The mark of an event, if it made one. -/
def Event.mark? : Event S → Option S.Mark
  | .marked m => some m
  | _ => none

namespace World

/-- The lines that were written, latest first. -/
def lines (w : World S) : List (Level × String) :=
  w.journal.filterMap fun e => e.event.line?

/-- The marks that were made, latest first. -/
def marks (w : World S) : List S.Mark :=
  w.journal.filterMap fun e => e.event.mark?

/-! ## Events -/

variable (w : World S) (host : Host S)

@[simp]
theorem lines_logged (level : Level) (text : String) :
    (w.note (.logged level text)).lines = (level, text) :: w.lines :=
  rfl

theorem perform_checkpoint {c : Bool} (h : w.cancelled = c) :
    w.perform host w.cancelled .checkpoint = .value c w := by
  subst h
  rfl

/-- What an effect can do to a world. -/
inductive Alters (w : World S) : World S → Prop
  | looks : Alters w w
  | notes (e : Event S) : Alters w (w.note e)
  | counts (counters : Stats.Counters) (e : Event S) : Alters w ({ w with counters }.note e)
  | draws (supply : Random.Supply) : Alters w { w with supply }
  | cancels : Alters w { w with cancelled := true }

variable {w host} {w' : World S} {token : Bool} {e : Effect S β}

theorem alters_of_perform {b : β} (h : w.perform host token e = .value b w') : w.Alters w' := by
  cases e with
  | draw d =>
      simp only [perform] at h
      split at h
      · cases h
        exact .draws _
      · cases h
      · cases h
  | access a => cases h; exact .counts _ _
  | log level text => cases h; exact .notes _
  | mark m => cases h; exact .notes _
  | isCancelled => cases h; exact .looks
  | checkpoint => cases h; exact .looks
  | cancel => cases h; exact .cancels
  | clock => cases h; exact .looks
  | uptime => cases h; exact .looks

/-- What draws nothing has a value. -/
theorem value_or_draw (w : World S) (host : Host S) (token : Bool) (e : Effect S β) :
    (∃ b w', w.perform host token e = .value b w') ∨ ∃ d, e = .draw d := by
  cases e with
  | draw d => exact .inr ⟨d, rfl⟩
  | access a => exact .inl ⟨_, _, rfl⟩
  | log level text => exact .inl ⟨_, _, rfl⟩
  | mark m => exact .inl ⟨_, _, rfl⟩
  | isCancelled => exact .inl ⟨_, _, rfl⟩
  | checkpoint => exact .inl ⟨_, _, rfl⟩
  | cancel => exact .inl ⟨_, _, rfl⟩
  | clock => exact .inl ⟨_, _, rfl⟩
  | uptime => exact .inl ⟨_, _, rfl⟩

theorem draw_of_perform_aborted {cause : Abort} (h : w.perform host token e = .aborted cause) :
    ∃ d, e = .draw d ∧ d w.supply = .abort cause := by
  rcases value_or_draw w host token e with ⟨b, w', hvalue⟩ | ⟨d, rfl⟩
  · cases hvalue.symm.trans h
  · refine ⟨d, rfl, ?_⟩
    simp only [perform] at h
    split at h
    · cases h
    · cases h
    · rename_i habort
      cases h
      exact habort

theorem draw_of_perform_starved (h : w.perform host token e = .starved) :
    ∃ d, e = .draw d ∧ d w.supply = .dry := by
  rcases value_or_draw w host token e with ⟨b, w', hvalue⟩ | ⟨d, rfl⟩
  · cases hvalue.symm.trans h
  · refine ⟨d, rfl, ?_⟩
    simp only [perform] at h
    split at h
    · cases h
    · assumption
    · cases h

theorem past_perform {b : β} (h : w.perform host token e = .value b w') : w'.past = w.past := by
  cases alters_of_perform h with
  | looks => rfl
  | notes e => rfl
  | counts counters e => rfl
  | draws supply => rfl
  | cancels => rfl

/-! ## The passing of time -/

/-- Time goes on to a wait's end, or to the moment at which the run is cancelled. -/
theorem nextMoment_spec {dues : List Nat} {moment : Nat}
    (h : w.nextMoment host dues = some moment) :
    moment ∈ dues ∨ w.cancelled = false ∧ ∃ t, host.cancelAt = some t ∧
      moment = max w.now t := by
  have hmem := (List.min?_eq_some_iff.1 h).1
  rcases List.mem_append.1 hmem with hmem | hmem
  · exact .inl hmem
  · refine .inr ?_
    cases hc : w.cancelled with
    | true => simp [hc] at hmem
    | false =>
        cases ht : host.cancelAt with
        | none => simp [hc, ht] at hmem
        | some t => exact ⟨rfl, t, rfl, by simpa [hc, ht] using hmem⟩

/-- No wait ends before. -/
theorem nextMoment_le {dues : List Nat} {moment d : Nat}
    (h : w.nextMoment host dues = some moment) (hd : d ∈ dues) : moment ≤ d :=
  (List.min?_eq_some_iff.1 h).2 d (List.mem_append_left _ hd)

/-- A run that is cancelled already waits for the ends of waits only. -/
theorem nextMoment_of_cancelled (hw : w.cancelled = true) (dues : List Nat) :
    w.nextMoment host dues = dues.min? := by
  simp [nextMoment, hw]

/-- If time does not go on to a wait's end, the run is cancelled when it has passed. -/
theorem cancelled_of_nextMoment {dues : List Nat} {moment : Nat}
    (h : w.nextMoment host dues = some moment) (hm : moment ∉ dues) :
    (w.passTo host moment).cancelled = true := by
  rcases (nextMoment_spec h).resolve_left hm with ⟨-, t, ht, rfl⟩
  have hreached : decide (t ≤ max w.now t) = true := decide_eq_true (Nat.le_max_right _ _)
  simp only [passTo, ht, hreached, Bool.or_true]

/-- Time may pass in two parts. -/
theorem passTo_passTo {m m' : Nat} (h : m ≤ m') :
    (w.passTo host m).passTo host m' = w.passTo host m' := by
  unfold passTo
  cases host.cancelAt with
  | none => simp
  | some t =>
      cases w.cancelled with
      | true => simp
      | false => simpa using fun ht => Nat.le_trans ht h

/-! ## Waits and time -/

variable (w host)

theorem cancelled_passTo (moment : Nat) (h : w.cancelled = true) :
    (w.passTo host moment).cancelled = true :=
  Bool.or_eq_true_iff.2 (.inl h)

@[simp]
theorem marks_begin (what : Wait S β) : (w.begin host what).1.marks = w.marks := by
  cases what <;> rfl

@[simp]
theorem counters_begin (what : Wait S β) : (w.begin host what).1.counters = w.counters := by
  cases what <;> rfl

@[simp]
theorem now_begin (what : Wait S β) : (w.begin host what).1.now = w.now := by
  cases what <;> rfl

@[simp]
theorem cancelled_begin (what : Wait S β) : (w.begin host what).1.cancelled = w.cancelled := by
  cases what <;> rfl

@[simp]
theorem supply_begin (what : Wait S β) : (w.begin host what).1.supply = w.supply := by
  cases what <;> rfl

variable (pending : Pending β)

@[simp]
theorem journal_deliver : (w.deliver pending).journal = w.journal := by
  unfold deliver
  split <;> rfl

@[simp]
theorem lines_deliver : (w.deliver pending).lines = w.lines := by
  rw [lines, journal_deliver, lines]

@[simp]
theorem marks_deliver : (w.deliver pending).marks = w.marks := by
  rw [marks, journal_deliver, marks]

@[simp]
theorem counters_deliver : (w.deliver pending).counters = w.counters := by
  unfold deliver
  split <;> rfl

@[simp]
theorem now_deliver : (w.deliver pending).now = w.now := by
  unfold deliver
  split <;> rfl

@[simp]
theorem past_deliver : (w.deliver pending).past = w.past := by
  unfold deliver
  split <;> rfl

@[simp]
theorem supply_deliver : (w.deliver pending).supply = w.supply := by
  unfold deliver
  split <;> rfl

@[simp]
theorem cancelled_deliver : (w.deliver pending).cancelled = (w.cancelled || pending.cancels) := by
  unfold deliver
  split <;> simp_all

/-! ## Held up -/

theorem lt_of_hasEnded_eq_false {d : Nat} (hended : w.hasEnded pending = false)
    (hdue : pending.due = some d) : w.now < d := by
  simpa [hasEnded, hdue] using hended

end World

/-- A wait that holds a strand up ends later. -/
theorem Strand.lt_due_of_advance {α : Type} {s : Strand S α} {host : Host S} {token : Bool}
    {w : World S} {d : Nat} (hs : s.advance host token w = none)
    (hd : d ∈ (s.due?.map Prod.fst).toList) : w.now < d := by
  rcases Option.map_eq_some_iff.1 (Option.mem_toList.1 hd) with ⟨⟨due, ticket⟩, hwait, rfl⟩
  -- A wait that has ended would let the strand go on.
  cases s with
  | active p => cases hwait
  | blocked pending next =>
      rcases Option.map_eq_some_iff.1 hwait with ⟨due, hdue, hpair⟩
      cases hpair
      refine w.lt_of_hasEnded_eq_false pending (Bool.eq_false_iff.2 fun hended => ?_) hdue
      simp [advance, hended] at hs
  | contested pending next =>
      rcases Option.map_eq_some_iff.1 hwait with ⟨due, hdue, hpair⟩
      cases hpair
      refine w.lt_of_hasEnded_eq_false pending (Bool.eq_false_iff.2 fun hended => ?_) hdue
      simp only [advance, hended, if_true] at hs
      split at hs <;> cases hs
  | starved => cases hwait
  | aborted cause => cases hwait

end Routine
end TxWorkload
