import TxWorkload.Proofs.Routine.Ending
import TxWorkload.Proofs.Routine.Record

/-!
# Deadline — routines that end in time once the run is cancelled

Between two steps of a routine time goes on, but not beyond a bound, and a cancellation is for
good. Under this pact a routine ends if each turn of its loops takes time or comes closer to an
end. A sleep that is not cut short takes time, and work that is cut short leaves a cancelled run
behind.
-/

namespace TxWorkload
namespace Routine

variable {S : Signature} {α β σ : Type}

/-! ## Clocks -/

namespace Clock

theorem le_roundUp (c : Clock) (t : Nat) : t ≤ c.roundUp t := by
  have hsplit := Nat.div_add_mod' (t + (c.tick - 1)) c.tick
  have hrest := Nat.mod_lt (t + (c.tick - 1)) c.tick_pos
  unfold roundUp
  omega

/-- No wait ends before it begins. -/
theorem le_deadline (c : Clock) (now : Nat) (d : Duration) : now ≤ c.deadline now d :=
  Nat.le_trans (Nat.le_add_right _ _) (c.le_roundUp _)

/-- A wait of some length ends later than it begins. -/
theorem lt_deadline (c : Clock) (now : Nat) {d : Duration} (h : 0 < c.span d) :
    now < c.deadline now d :=
  calc now < now + c.span d := Nat.lt_add_of_pos_right h
    _ ≤ c.deadline now d := c.le_roundUp _

/-- No clock cuts a wait to nothing, unless it allows none. -/
theorem span_pos {c : Clock} (hc : c.longest ≠ some 0) {d : Duration} (hd : 0 < d.toNanos) :
    0 < c.span d := by
  unfold span
  cases hlongest : c.longest with
  | none => exact hd
  | some longest =>
      refine Nat.lt_min.2 ⟨hd, Nat.pos_of_ne_zero fun hzero => hc ?_⟩
      rw [hlongest, hzero]

end Clock

/-! ## The pact -/

namespace World

theorem now_perform {w w' : World S} {host : Host S} {token : Bool} {e : Effect S β} {b : β}
    (h : w.perform host token e = .value b w') : w'.now = w.now := by
  cases alters_of_perform h with
  | looks => rfl
  | notes e => rfl
  | counts counters e => rfl
  | draws supply => rfl
  | cancels => rfl

theorem cancelled_perform {w w' : World S} {host : Host S} {token : Bool} {e : Effect S β} {b : β}
    (h : w.perform host token e = .value b w') (hw : w.cancelled = true) :
    w'.cancelled = true := by
  cases alters_of_perform h with
  | looks => exact hw
  | notes e => exact hw
  | counts counters e => exact hw
  | draws supply => exact hw
  | cancels => rfl

/-- Time goes on, but not beyond a bound, and a cancellation is for good. -/
structure Elapses (bound : Nat) (w w' : World S) : Prop where
  later : w.now ≤ w'.now
  inTime : w.now ≤ bound → w'.now ≤ bound
  cancelled : w.cancelled = true → w'.cancelled = true

namespace Elapses

variable {bound : Nat} {w w' w'' : World S}

theorem refl (w : World S) : Elapses bound w w :=
  ⟨Nat.le_refl _, id, id⟩

theorem trans (h : Elapses bound w w') (h' : Elapses bound w' w'') : Elapses bound w w'' :=
  ⟨Nat.le_trans h.later h'.later, h'.inTime ∘ h.inTime, h'.cancelled ∘ h.cancelled⟩

/-- What a routine does takes no time. -/
theorem of_perform {host : Host S} {token : Bool} {e : Effect S β} {b : β}
    (h : w.perform host token e = .value b w') : Elapses bound w w' := by
  have hnow := now_perform h
  exact ⟨Nat.le_of_eq hnow.symm, fun hw => hnow ▸ hw, cancelled_perform h⟩

theorem of_begin (host : Host S) (what : Wait S β) : Elapses bound w (w.begin host what).1 := by
  have hnow := w.now_begin host what
  exact ⟨Nat.le_of_eq hnow.symm, fun hw => hnow ▸ hw, fun hw => by rwa [cancelled_begin]⟩

theorem of_deliver (pending : Pending β) : Elapses bound w (w.deliver pending) := by
  have hnow := w.now_deliver pending
  refine ⟨Nat.le_of_eq hnow.symm, fun hw => hnow ▸ hw, fun hw => ?_⟩
  rw [cancelled_deliver, hw]
  rfl

end Elapses
end World

/-- No step of a strand takes time, and none takes a cancellation back. -/
theorem Strand.elapses_of_advance (bound : Nat) {host : Host S} {token : Bool} {w w' : World S}
    {s s' : Strand S α} (hs : s.advance host token w = some (w', s')) :
    World.Elapses bound w w' ∧ w'.now = w.now :=
  relates_of_step (R := fun w w' => World.Elapses bound w w' ∧ w'.now = w.now)
    (fun w => ⟨.refl w, rfl⟩) (fun h h' => ⟨h.1.trans h'.1, h'.2.trans h.2⟩)
    (fun h => ⟨.of_perform h, World.now_perform h⟩)
    (fun what w => ⟨.of_begin host what, w.now_begin host what⟩)
    (fun pending w => ⟨.of_deliver pending, w.now_deliver pending⟩) hs

/-- The routine is to end, if time does not go on beyond a bound. -/
def timely (host : Host S) (bound : Nat) : Pact S where
  host := host
  token := World.cancelled
  rely := World.Elapses bound
  guarantee _ _ := True
  ends := True
  starves := True
  rely_refl := World.Elapses.refl
  rely_trans := World.Elapses.trans
  guarantee_refl _ := trivial
  guarantee_trans _ _ := trivial

/-! ## What takes no loops -/

/-- A routine without loops that is never aborted; `unraced` tells whether it may wait without
racing against cancellation. -/
def brief (unraced : Prop) : Licence S where
  effect e := ∀ host token (w : World S) cause, w.perform host token e ≠ .aborted cause
  wait raced _ _ := raced = true ∨ unraced
  loops := False

variable {host : Host S} {bound : Nat} {w : World S}

theorem respects_brief (before : World S) :
    (timely host bound).Respects (brief False) (World.Elapses bound before) where
  rely := fun hr hw => hw.trans hr
  effect := fun e w he hw => by
    dsimp only [timely]
    cases h : w.perform host w.cancelled e with
    | value b w' => exact ⟨trivial, hw.trans (.of_perform h)⟩
    | starved => exact trivial
    | aborted cause => exact he _ _ _ _ h
  begin := fun what _ _ hw => ⟨trivial, hw.trans (.of_begin host what)⟩
  deliver := fun pending _ hw => ⟨trivial, hw.trans (.of_deliver pending)⟩
  raced := fun _ h => h.elim (fun h => Bool.noConfusion h) id
  loops := False.elim

/-- What is brief ends in time. -/
theorem keeps_brief {p : Routine S α} (hp : p.Within (brief False)) :
    p.Keeps (timely host bound) (fun _ => World.Elapses bound w) w :=
  keeps_of_within (respects_brief w) hp (.refl w)

theorem keeps_answer {a : α} {Q : α → World S → Prop}
    (hQ : ∀ w', World.Elapses bound w w' → Q a w') :
    (pure a : Routine S α).Keeps (timely host bound) Q w :=
  keeps_pure hQ

/-! ## What is cut short -/

theorem keeps_isCancelled :
    (isCancelled : Routine S Bool).Keeps (timely host bound)
      (fun token w' => World.Elapses bound w w' ∧ (token = true → w'.cancelled = true)) w :=
  keeps_act fun _ hr => ⟨trivial, fun _ hr' => ⟨hr.trans hr', hr'.cancelled⟩⟩

/-- What a guarded routine that began in one world leaves behind: if it has no result, the run is
cancelled. -/
def CutShort (bound : Nat) (before : World S) (answer : Option α) (w : World S) : Prop :=
  World.Elapses bound before w ∧ (answer = none → w.cancelled = true)

variable {before : World S}

theorem keeps_cut (hw : World.Elapses bound before w) (hcancelled : w.cancelled = true) :
    (Routine.done none : Routine S (Option α)).Keeps (timely host bound)
      (CutShort bound before) w :=
  fun _ hr => ⟨hw.trans hr, fun _ => hr.cancelled hcancelled⟩

theorem keeps_racing {what : Wait S β} {next : Option β → Routine S (Option α)}
    (hw : World.Elapses bound before w)
    (hlost : ∀ w', World.Elapses bound before w' → w'.cancelled = true →
      (next none).Keeps (timely host bound) (CutShort bound before) w')
    (hwon : ∀ b w', World.Elapses bound before w' →
      (next (some b)).Keeps (timely host bound) (CutShort bound before) w') :
    (Routine.race what next).Keeps (timely host bound) (CutShort bound before) w := by
  intro w₁ hr
  have hbegun : World.Elapses bound before (w₁.begin host what).1 :=
    (hw.trans hr).trans (.of_begin host what)
  have hdelivered : ∀ w₂, World.Elapses bound before w₂ →
      (timely host bound).Delivers (w₁.begin host what).2
        (fun b => (next (some b)).Keeps (timely host bound) (CutShort bound before)) w₂ w₂ :=
    fun w₂ hw₂ => ⟨trivial, hwon _ _ (hw₂.trans (.of_deliver _))⟩
  dsimp only
  split
  · exact ⟨trivial, (hdelivered _ hbegun).2⟩
  · refine ⟨trivial, ?_⟩
    intro w₂ hr'
    have hw₂ := hbegun.trans hr'
    exact ⟨hlost w₂ hw₂, fun _ _ => hdelivered w₂ hw₂⟩

theorem keeps_guarded {p : Routine S α} (hp : p.Within (brief True))
    (hw : World.Elapses bound before w) :
    p.guarded.Keeps (timely host bound) (CutShort bound before) w := by
  induction p generalizing w with
  | done a =>
      rw [guarded]
      intro w' hr
      exact ⟨hw.trans hr, fun hnone => absurd hnone (Option.some_ne_none a)⟩
  | perform e next ih =>
      rw [guarded]
      intro w' hr
      dsimp only [timely]
      cases h : w'.perform host w'.cancelled e with
      | value b w'' => exact ⟨trivial, ih b (hp.2 b) ((hw.trans hr).trans (.of_perform h))⟩
      | starved => exact trivial
      | aborted cause => exact hp.1 _ _ _ _ h
  | wait what next ih =>
      rw [guarded]
      -- A wait that did not race does so now.
      exact keeps_racing hw (fun _ => keeps_cut) fun b _ => ih b (hp.2 b)
  | race what next ih =>
      rw [guarded]
      exact keeps_racing hw (fun _ => keeps_cut) fun b _ => ih (some b) (hp.2 (some b))
  | loop s body next _ _ => exact hp.1.elim

/-- Work that gives no result leaves a cancelled run behind. -/
theorem keeps_untilCancelled {p : Routine S α} (hp : p.Within (brief True)) :
    (untilCancelled p).Keeps (timely host bound) (CutShort bound w) w := by
  intro w₁ hr
  refine ⟨trivial, ?_⟩
  change ((if w₁.cancelled = true then pure none else p.guarded : Routine S (Option α))).Keeps
    (timely host bound) (CutShort bound w) w₁
  by_cases hcancelled : w₁.cancelled = true
  · rw [if_pos hcancelled]
    exact keeps_cut hr hcancelled
  · rw [if_neg hcancelled]
    exact keeps_guarded hp hr

/-- What a sleep that began in one world leaves behind: unless the run is cancelled, it took
time. -/
def Slept (bound : Nat) (before : World S) (token : Bool) (w : World S) : Prop :=
  World.Elapses bound before w ∧
    if token = true then w.cancelled = true else before.now < w.now

theorem keeps_awakened (hw : World.Elapses bound before w)
    (hwoken : w.cancelled = true ∨ before.now < w.now) :
    (isCancelled : Routine S Bool).Keeps (timely host bound) (Slept bound before) w := by
  refine keeps_act fun w₁ hr => ⟨trivial, fun w₂ hr' => ⟨(hw.trans hr).trans hr', ?_⟩⟩
  split
  · rename_i hcancelled
    exact hr'.cancelled hcancelled
  · rename_i hactive
    rcases hwoken with hcancelled | hlate
    · exact absurd (hr.cancelled hcancelled) hactive
    · calc before.now < w.now := hlate
        _ ≤ w₁.now := hr.later
        _ ≤ w₂.now := hr'.later

theorem keeps_sleepOrCancelled {d : Duration} (hd : 0 < host.clock.span d) :
    (sleepOrCancelled d : Routine S Bool).Keeps (timely host bound) (Slept bound w) w := by
  intro w₁ hr
  refine ⟨trivial, ?_⟩
  change ((if w₁.cancelled = true then pure true
    else Routine.race (.timer d) fun _ => isCancelled : Routine S Bool)).Keeps
    (timely host bound) (Slept bound w) w₁
  by_cases hcancelled : w₁.cancelled = true
  · rw [if_pos hcancelled]
    exact keeps_answer fun w' hr' => ⟨hr.trans hr', hr'.cancelled hcancelled⟩
  · rw [if_neg hcancelled]
    intro w₂ hr'
    have hw₂ := hr.trans hr'
    -- The timer is due later than now, so it does not end at once.
    have hdue := host.clock.lt_deadline w₂.now hd
    have hended : (w₂.begin host (.timer d)).1.hasEnded (w₂.begin host (.timer d)).2 = false :=
      decide_eq_false (Nat.not_le.2 hdue)
    dsimp only [timely]
    rw [if_neg (Bool.eq_false_iff.1 hended)]
    refine ⟨trivial, ?_⟩
    intro w₃ hr₃
    have hw₃ := (hw₂.trans (.of_begin host (.timer d))).trans hr₃
    refine ⟨fun hlost => keeps_awakened hw₃ (.inl hlost), fun _ hover => ⟨trivial, ?_⟩⟩
    refine keeps_awakened (hw₃.trans (.of_deliver _)) (.inr ?_)
    rw [World.now_deliver]
    calc w.now ≤ w₂.now := hw₂.later
      _ < host.clock.deadline w₂.now d := hdue
      _ ≤ w₃.now := of_decide_eq_true hover

/-! ## Loops -/

/-- What a turn that began in one world leaves behind: it took time, or the loop is at its end. -/
def Onward (bound : Nat) (Q : β → World S → Prop) (before : World S) :
    σ ⊕ β → World S → Prop
  | .inl _, w => World.Elapses bound before w ∧ before.now < w.now
  | .inr b, w => Q b w

/-- A loop ends in time if each of its turns takes time or is the last one. -/
theorem keeps_repeat {s : σ} {body : σ → Routine S (σ ⊕ β)} {Q : β → World S → Prop}
    (hw : w.now ≤ bound)
    (hbody : ∀ s w, w.now ≤ bound → (body s).Keeps (timely host bound) (Onward bound Q w) w) :
    (iterate s body).Keeps (timely host bound) Q w := by
  -- Time is bounded, so a loop whose turns all take time has finitely many of them.
  have hwf : WellFounded fun x y : σ × World S => y.2.now < x.2.now ∧ x.2.now ≤ bound := by
    refine Subrelation.wf (fun {x y} h => ?_) (measure fun x : σ × World S => bound - x.2.now).wf
    exact Nat.sub_lt_sub_left (Nat.lt_of_lt_of_le h.1 h.2) h.1
  refine keeps_iterate (fun _ w => w.now ≤ bound) _ (fun _ => hwf) (fun _ hr => hr.inTime hw) ?_
  intro s w hw
  refine keeps_mono (hbody s w hw) ?_
  intro turn w' h
  have h := h w' (World.Elapses.refl w')
  cases turn with
  | inl s' => exact ⟨h.1.inTime hw, h.2, h.1.inTime hw⟩
  | inr b => exact h

end Routine
end TxWorkload
