import TxWorkload.Proofs.Routine.Adequacy
import TxWorkload.Proofs.Routine.Deadline

/-!
# Course — how a single routine gets on in time

A point of a run tells the time, whether the run is cancelled, and the words that are left. A
stretch leads from one point to another with deeds of some kind, and without deeds it stays where it
is. What a routine does that only asks and sleeps is a stretch; draws and naps tell more. Once a
routine whose waits all race against cancellation is cancelled, its time stands still.
-/

namespace TxWorkload
namespace Routine

variable {S : Signature} {α β : Type} {host : Host S} {w w₁ w' : World S} {deeds : List (Deed S)}

/-! ## Points -/

/-- Where a run is: the time, whether it is cancelled, and the words that are left. -/
@[ext]
structure Point where
  time : Nat
  cancelled : Bool
  supply : Random.Supply
  deriving DecidableEq, Repr

/-- Where a world is. -/
def World.point (w : World S) : Point :=
  ⟨w.now, w.cancelled, w.supply⟩

/-- Something that is done at a point. -/
def Point.deed (x : Point) (act : Act S) : Deed S :=
  ⟨x.time, x.cancelled, act⟩

/-- A draw from the words that are left. -/
def Point.Draws (x : Point) (d : Random.Draw α) (a : α) (y : Point) : Prop :=
  ∃ rest, d x.supply = .value a rest ∧ y = { x with supply := rest }

/-- Time goes on with deeds of some kind; the run may be cancelled, and no word is drawn. -/
structure Stretch (kind : Act S → Prop) (x : Point) (deeds : List (Deed S)) (y : Point) :
    Prop where
  later : x.time ≤ y.time
  cancelled : x.cancelled = true → y.cancelled = true
  supply : y.supply = x.supply
  /-- Without deeds nothing happens. -/
  still : deeds = [] → y = x
  kinds : ∀ deed ∈ deeds, kind deed.act
  times : ∀ deed ∈ deeds, x.time ≤ deed.time ∧ deed.time ≤ y.time

namespace Stretch

variable {kind : Act S → Prop} {x y z : Point} {ds ds' : List (Deed S)}

theorem refl (x : Point) : Stretch kind x [] x where
  later := Nat.le_refl _
  cancelled := id
  supply := rfl
  still := fun _ => rfl
  kinds := fun _ h => absurd h (List.not_mem_nil)
  times := fun _ h => absurd h (List.not_mem_nil)

theorem trans (h : Stretch kind x ds y) (h' : Stretch kind y ds' z) :
    Stretch kind x (ds ++ ds') z where
  later := Nat.le_trans h.later h'.later
  cancelled := h'.cancelled ∘ h.cancelled
  supply := h'.supply.trans h.supply
  still := fun hnil => by
    rcases List.append_eq_nil_iff.1 hnil with ⟨hds, hds'⟩
    rw [h'.still hds', h.still hds]
  kinds := fun deed hdeed => by
    rcases List.mem_append.1 hdeed with hdeed | hdeed
    · exact h.kinds deed hdeed
    · exact h'.kinds deed hdeed
  times := fun deed hdeed => by
    rcases List.mem_append.1 hdeed with hdeed | hdeed
    · have htimes := h.times deed hdeed
      exact ⟨htimes.1, Nat.le_trans htimes.2 h'.later⟩
    · have htimes := h'.times deed hdeed
      exact ⟨Nat.le_trans h.later htimes.1, htimes.2⟩

/-- Where no deed is allowed, nothing happens. -/
theorem eq_of_idle (h : Stretch (fun _ => False) x ds y) : ds = [] ∧ y = x := by
  have hnil : ds = [] := List.eq_nil_iff_forall_not_mem.2 h.kinds
  exact ⟨hnil, h.still hnil⟩

/-- The stretch of a single deed. -/
theorem single {act : Act S} (hkind : kind act) (hlater : x.time ≤ y.time)
    (hcancelled : x.cancelled = true → y.cancelled = true) (hsupply : y.supply = x.supply) :
    Stretch kind x [x.deed act] y where
  later := hlater
  cancelled := hcancelled
  supply := hsupply
  still := fun h => absurd h (List.cons_ne_nil _ _)
  kinds := fun deed hdeed => by
    rw [List.mem_singleton.1 hdeed]
    exact hkind
  times := fun deed hdeed => by
    rw [List.mem_singleton.1 hdeed]
    exact ⟨Nat.le_refl _, hlater⟩

end Stretch

/-! ## Guards -/

/-- A routine and what follows it may be cut short in either part. -/
theorem guarded_andThen (p : Routine S α) (k : α → Routine S β) :
    (p.andThen k).guarded =
      p.guarded.andThen fun answer => answer.elim (.done none) fun a => (k a).guarded := by
  induction p with
  | done a => rfl
  | perform e next ih =>
      simp only [andThen, guarded, ih]
  | wait what next ih =>
      simp only [andThen, guarded]
      congr 1
      funext b
      cases b with
      | none => rfl
      | some b => exact ih b k
  | race what next ih =>
      simp only [andThen, guarded]
      congr 1
      funext b
      cases b with
      | none => rfl
      | some b => exact ih (some b) k
  | loop s body next _ ih =>
      simp only [andThen, guarded]
      congr 1
      funext b
      cases b with
      | none => rfl
      | some b => exact ih b k

/-! ## Waits -/

theorem Awaited.passes {what : Wait S β} (h : Awaited host w what w₁) :
    w.now ≤ w₁.now ∧ (w.cancelled = true → w₁.cancelled = true) ∧ w₁.supply = w.supply := by
  cases h with
  | atOnce hdue h =>
      refine ⟨by simp, fun hw => ?_, by simp⟩
      rw [World.cancelled_deliver, World.cancelled_begin, hw]
      rfl
  | later hdue h =>
      refine ⟨?_, fun hw => ?_, ?_⟩
      · rw [World.now_deliver]
        exact Nat.le_of_lt h
      · rw [World.cancelled_deliver]
        simp [World.passTo, hw]
      · rw [World.supply_deliver]
        exact World.supply_begin _ _ _

theorem Raced.passes {what : Wait S β} {answer : Option β} (h : Raced host w what answer w₁) :
    w.now ≤ w₁.now ∧ (w.cancelled = true → w₁.cancelled = true) ∧ w₁.supply = w.supply := by
  cases h with
  | atOnce hdue h => exact (Awaited.atOnce hdue h).passes
  | inTime hw hdue h hcancel =>
      refine ⟨?_, fun hcancelled => absurd (hcancelled.symm.trans hw) (by decide), ?_⟩
      · unfold Solo.delivery
        rw [World.now_deliver]
        exact Nat.le_of_lt h
      · unfold Solo.delivery
        rw [World.supply_deliver]
        exact World.supply_begin _ _ _
  | tooLate hw h =>
      exact ⟨by simp, fun _ => by simpa using hw, by simp⟩
  | cutOff hw hcancel h =>
      exact ⟨Nat.le_max_left _ _, fun _ => rfl, World.supply_begin _ _ _⟩

/-- A wait that gives way to a cancellation leaves a cancelled run behind. -/
theorem Raced.cancelled_of_none {what : Wait S β} (h : Raced host w what none w₁) :
    w₁.cancelled = true := by
  cases h with
  | tooLate hw h => simpa using hw
  | cutOff hw hcancel h => rfl

/-! ## Stretches of routines -/

/-- The licence to do deeds of some kind. Effects that are no deeds stay where they are. -/
def doing (kind : Act S → Prop) : Licence S where
  effect e := (∀ act, e.act? = some act → kind act) ∧
    ∀ host token (w : World S) b w', w.perform host token e = .value b w' → w'.point = w.point
  wait _ _ what := kind what.act
  loops := True

variable {kind : Act S → Prop}

/-- Effects that are no deeds, draw nothing and cancel nothing. -/
def Effect.Idle : {β : Type} → Effect S β → Prop
  | _, .mark _ => False
  | _, .cancel => False
  | _, .draw _ => False
  | _, _ => True

theorem doing_of_idle {e : Effect S β} (he : e.Idle) : (doing kind).effect e := by
  refine ⟨fun act hact => ?_, fun host token w b w' h => ?_⟩
  · cases e with
    | mark m => exact he.elim
    | _ => cases hact
  · cases e with
    | mark m => exact he.elim
    | cancel => exact he.elim
    | draw d => exact he.elim
    | _ =>
        cases h
        rfl

theorem stretch_of_perform {e : Effect S β} {b : β} (he : (doing kind).effect e)
    (h : w.perform host w.cancelled e = .value b w') :
    Stretch kind w.point (w.deeds e.act?) w'.point := by
  rw [he.2 _ _ _ _ _ h]
  cases hact : e.act? with
  | none => exact .refl _
  | some act => exact .single (he.1 act hact) (Nat.le_refl _) id rfl

/-- What a routine does that keeps to deeds of some kind and draws nothing is a stretch. -/
theorem stretch_of_evaluates {p : Routine S α} {a : α} (hp : p.Within (doing kind))
    (h : p.Evaluates host w deeds a w') : Stretch kind w.point deeds w'.point := by
  induction p generalizing w deeds w' with
  | done a =>
      rcases h with ⟨rfl, rfl, rfl⟩
      exact .refl _
  | perform e next ih =>
      rcases h with ⟨b, w₁, rest, he, rfl, h⟩
      exact (stretch_of_perform hp.1 he).trans (ih b (hp.2 b) h)
  | wait what next ih =>
      rcases h with ⟨w₁, rest, hw, rfl, h⟩
      rcases hw.passes with ⟨hlater, hcancelled, hsupply⟩
      exact (Stretch.single hp.1 hlater hcancelled hsupply).trans (ih _ (hp.2 _) h)
  | race what next ih =>
      rcases h with ⟨answer, w₁, rest, hw, rfl, h⟩
      rcases hw.passes with ⟨hlater, hcancelled, hsupply⟩
      exact (Stretch.single hp.1 hlater hcancelled hsupply).trans (ih _ (hp.2 _) h)
  | loop s body next ihb ih =>
      rcases h with ⟨b, w₁, turns, rest, hturns, rfl, h⟩
      have hloop : Stretch kind w.point turns w₁.point := by
        clear h
        induction hturns with
        | last hturn => exact ihb _ (hp.2.1 _) hturn
        | more hturn _ ihturns =>
            exact (ihb _ (hp.2.1 _) hturn).trans (ihturns ⟨hp.1, hp.2.1, hp.2.2⟩)
      exact hloop.trans (ih b (hp.2.2 b) h)

/-- What a routine does that neither waits nor makes marks nor draws leaves the run where it is. -/
theorem idle_of_evaluates {p : Routine S α} {a : α} (hp : p.Within (doing fun _ => False))
    (h : p.Evaluates host w deeds a w') : deeds = [] ∧ w'.point = w.point :=
  (stretch_of_evaluates hp h).eq_of_idle

/-- What a turn of a loop does for a relation to hold of the loop: if it is the last one the
relation holds of it, and otherwise the relation extends from the rest of the loop to the turn. -/
def Extends {σ : Type} (R : σ → Point → List (Deed S) → β → Point → Prop) (s : σ) (x : Point)
    (deeds : List (Deed S)) : σ ⊕ β → Point → Prop
  | .inr b, y => R s x deeds b y
  | .inl s', y => ∀ rest b z, R s' y rest b z → R s x (deeds ++ rest) b z

/-- A loop is related to its result if each turn extends the relation. -/
theorem loop_of_evaluates {σ : Type} {R : σ → Point → List (Deed S) → β → Point → Prop}
    {body : σ → Routine S (σ ⊕ β)}
    (hbody : ∀ {s w deeds turn w'}, (body s).Evaluates host w deeds turn w' →
      Extends R s w.point deeds turn w'.point)
    {s : σ} {b : β} (h : (iterate s body).Evaluates host w deeds b w') :
    R s w.point deeds b w'.point := by
  have hturns := evaluates_iterate.1 h
  clear h
  induction hturns with
  | last hturn => exact hbody hturn
  | more hturn _ ih => exact hbody hturn _ _ _ ih

/-! ## Single effects -/

theorem draws_of_evaluates {d : Random.Draw α} {a : α}
    (h : (draw d : Routine S α).Evaluates host w deeds a w') :
    deeds = [] ∧ w.point.Draws d a w'.point := by
  rcases evaluates_act.1 h with ⟨hd, rfl⟩
  refine ⟨rfl, ?_⟩
  simp only [World.perform] at hd
  split at hd
  · rename_i hvalue
    cases hd
    exact ⟨_, hvalue, rfl⟩
  · cases hd
  · cases hd

theorem mark_of_evaluates {m : S.Mark}
    (h : (mark m : Routine S Unit).Evaluates host w deeds () w') :
    deeds = [w.point.deed (.marks m)] ∧ w'.point = w.point := by
  rcases evaluates_act.1 h with ⟨hmark, rfl⟩
  cases hmark
  exact ⟨rfl, rfl⟩

theorem log_of_evaluates {level : Level} {text : String}
    (h : (log level text : Routine S Unit).Evaluates host w deeds () w') :
    deeds = [] ∧ w'.point = w.point := by
  rcases evaluates_act.1 h with ⟨hlog, rfl⟩
  cases hlog
  exact ⟨rfl, rfl⟩

theorem isCancelled_of_evaluates {token : Bool}
    (h : (isCancelled : Routine S Bool).Evaluates host w deeds token w') :
    deeds = [] ∧ token = w.cancelled ∧ w' = w := by
  rcases evaluates_act.1 h with ⟨hlook, rfl⟩
  cases hlook
  exact ⟨rfl, rfl, rfl⟩

/-- What a cancelled run leaves out. Both ways to look for a cancellation find it. -/
theorem unlessCancelled_of_evaluates {p : Routine S α} {a b : α} (look : Effect S Bool)
    (hlook : ∀ w : World S, w.perform host w.cancelled look = .value w.cancelled w)
    (hdeeds : look.act? = none)
    (h : (act look >>= fun token => if token = true then pure a else p).Evaluates host w deeds b
      w') :
    (w.cancelled = true ∧ deeds = [] ∧ b = a ∧ w' = w) ∨
      (w.cancelled = false ∧ p.Evaluates host w deeds b w') := by
  rcases evaluates_bind.1 h with ⟨token, w₁, before, after, hfound, hrest, rfl⟩
  rcases evaluates_act.1 hfound with ⟨hvalue, rfl⟩
  cases (hlook w).symm.trans hvalue
  rw [hdeeds]
  cases hw : w.cancelled with
  | true =>
      rw [hw] at hrest
      rcases hrest with ⟨rfl, rfl, rfl⟩
      exact .inl ⟨rfl, rfl, rfl, rfl⟩
  | false =>
      rw [hw] at hrest
      exact .inr ⟨rfl, hrest⟩

/-! ## Races -/

/-- Work that is cut short leaves a cancelled run behind. -/
theorem cancelled_of_guarded {p : Routine S α} (h : p.guarded.Evaluates host w deeds none w') :
    w'.cancelled = true := by
  induction p generalizing w deeds w' with
  | done a =>
      rcases h with ⟨-, hnone, -⟩
      cases hnone
  | perform e next ih =>
      rcases h with ⟨b, w₁, rest, -, -, h⟩
      exact ih b h
  | wait what next ih =>
      rw [guarded] at h
      rcases h with ⟨answer, w₁, rest, hraced, -, h⟩
      cases answer with
      | none =>
          rcases h with ⟨-, -, rfl⟩
          exact hraced.cancelled_of_none
      | some b => exact ih b h
  | race what next ih =>
      rw [guarded] at h
      rcases h with ⟨answer, w₁, rest, hraced, -, h⟩
      cases answer with
      | none =>
          rcases h with ⟨-, -, rfl⟩
          exact hraced.cancelled_of_none
      | some b => exact ih (some b) h
  | loop s body next ihb ih =>
      rw [guarded] at h
      rcases h with ⟨answer, w₁, turns, rest, hturns, -, h⟩
      cases answer with
      | some b => exact ih b h
      | none =>
          rcases h with ⟨-, -, rfl⟩
          -- Only a turn that is cut short ends the loop without a result.
          generalize hanswer : (none : Option _) = answer at hturns
          induction hturns with
          | more _ _ ihturns => exact ihturns hanswer
          | last hturn =>
              subst hanswer
              rcases evaluates_andThen.1 hturn with ⟨turn, w₂, _, _, hbody, hlast, -⟩
              rcases hlast with ⟨-, hturn, rfl⟩
              cases turn with
              | none => exact ihb _ hbody
              | some turn =>
                  cases turn with
                  | inl s => cases hturn
                  | inr b => cases hturn

/-- Work that races against cancellation is not begun once the run is cancelled. -/
theorem untilCancelled_of_evaluates {p : Routine S α} {answer : Option α}
    (h : (untilCancelled p).Evaluates host w deeds answer w') :
    (w.cancelled = true ∧ deeds = [] ∧ answer = none ∧ w' = w) ∨
      (w.cancelled = false ∧ p.guarded.Evaluates host w deeds answer w') :=
  unlessCancelled_of_evaluates .checkpoint (fun _ => rfl) rfl h

/-- A sleep that races against cancellation, timed by an ideal clock, and whether the run is
cancelled in the end: it is left out, or lasts as long as it should, or is cut short. -/
inductive Naps (d : Duration) (x : Point) : List (Deed S) → Bool → Point → Prop
  | leftOut (hx : x.cancelled = true) : Naps d x [] true x
  | slept (hx : x.cancelled = false) :
      Naps d x [x.deed (.sleeps d)] false { x with time := x.time + d.toNanos }
  | cutShort {t : Nat} (hx : x.cancelled = false) (hlater : x.time ≤ t)
      (hend : t ≤ x.time + d.toNanos) :
      Naps d x [x.deed (.sleeps d)] true { x with time := t, cancelled := true }

theorem Naps.cancelled_of_true {d : Duration} {x y : Point} (h : Naps d x deeds true y) :
    y.cancelled = true := by
  cases h with
  | leftOut hx => exact hx
  | cutShort _ _ _ => rfl

/-- An ideal clock is exact. -/
theorem Clock.deadline_ideal (now : Nat) (d : Duration) :
    ({} : Clock).deadline now d = now + d.toNanos := by
  have hexact : ∀ t, ({} : Clock).roundUp t = t := by
    intro t
    unfold Clock.roundUp
    rw [Nat.div_one, Nat.mul_one, Nat.sub_self, Nat.add_zero]
  exact hexact _

/-- A timer that races against cancellation, and what is found when it ends. -/
theorem naps_of_raced {d : Duration} {answer : Option Unit} (hclock : host.clock = {})
    (hw : w.cancelled = false) (h : Raced host w (.timer d) answer w₁) :
    Naps d w.point (w.deeds (some (.sleeps d))) w₁.cancelled w₁.point := by
  have hdue : (w.begin host (.timer d)).2.due = some (w.now + d.toNanos) := by
    simp only [World.begin, hclock, Clock.deadline_ideal]
  have hend : ∀ {t}, (w.begin host (.timer d)).2.due = some t → t = w.now + d.toNanos :=
    fun h => (Option.some.inj (h.symm.trans hdue))
  have hslept : w.now + d.toNanos = w₁.now → w₁.cancelled = false → w₁.supply = w.supply →
      Naps d w.point (w.deeds (some (.sleeps d))) w₁.cancelled w₁.point := by
    intro hnow hactive hsupply
    have hpoint : w₁.point = { w.point with time := w.point.time + d.toNanos } :=
      Point.ext hnow.symm (hactive.trans hw.symm) hsupply
    rw [hactive, hpoint]
    exact .slept hw
  cases h with
  | atOnce hdue h =>
      refine hslept ?_ hw (World.supply_begin _ _ _)
      have hnone : d.toNanos = 0 := by
        have := hend hdue
        omega
      rw [hnone]
      rfl
  | inTime _ hdue h hcancel =>
      exact hslept (hend hdue).symm rfl rfl
  | tooLate hcancelled _ => exact absurd (hcancelled.symm.trans hw) (by decide)
  | @cutOff t _ hcancel h =>
      have hlate := h _ hdue
      exact .cutShort (t := max w.now t) hw (Nat.le_max_left _ _)
        (Nat.max_le.2 ⟨Nat.le_add_right _ _, hlate.2⟩)

theorem naps_of_evaluates {d : Duration} {token : Bool} (hclock : host.clock = {})
    (h : (sleepOrCancelled d : Routine S Bool).Evaluates host w deeds token w') :
    Naps d w.point deeds token w'.point := by
  rcases unlessCancelled_of_evaluates .checkpoint (fun _ => rfl) rfl h with
    ⟨hw, rfl, rfl, rfl⟩ | ⟨hw, answer, w₁, rest, hraced, rfl, hlook⟩
  · exact .leftOut hw
  · rcases isCancelled_of_evaluates hlook with ⟨rfl, rfl, rfl⟩
    exact naps_of_raced hclock hw hraced

/-! ## Once the run is cancelled -/

/-- The licence to wait in races against cancellation only. -/
def heeding : Licence S where
  effect _ := True
  wait raced _ _ := raced = true
  loops := True

/-- Once it is cancelled, what heeds cancellation never waits. -/
theorem Strand.isOver_of_heeding {s : Strand S α} (h : s.Within heeding)
    (hs : s.advance host true w = none) : s.isOver = true := by
  cases s with
  | active p =>
      cases p with
      | done a => rfl
      | perform e next =>
          simp only [advance] at hs
          split at hs <;> cases hs
      | wait what next => cases h.1
      | race what next =>
          simp only [advance] at hs
          split at hs <;> cases hs
      | loop s body next => cases hs
  | blocked pending next =>
      rcases h.1 with ⟨γ, what, hraced⟩
      cases hraced
  | contested pending next => cases hs
  | starved => rfl
  | aborted cause => rfl

namespace Solo

variable {x y : Solo S α}

/-- What heeds cancellation stays at the moment of its cancellation, and does not miss it. -/
theorem heeds_of_step (hx : x.strand.Within heeding) (hs : x.step host = some y) :
    y.strand.Within heeding ∧
      (x.world.cancelled = true → y.world.cancelled = true ∧ y.world.now = x.world.now) ∧
      ∀ t, host.cancelAt = some t → y.world.now ≤ max x.world.now t := by
  unfold step at hs
  split at hs
  · rename_i w' s' hadvance
    cases hs
    rcases Strand.elapses_of_advance 0 hadvance with ⟨helapses, hnow⟩
    refine ⟨Strand.within_of_advance hx hadvance, fun hc => ⟨helapses.cancelled hc, hnow⟩, ?_⟩
    intro t _
    rw [hnow]
    exact Nat.le_max_left _ _
  · rename_i hadvance
    split at hs
    · cases hs
    · rename_i hover
      rcases Option.map_eq_some_iff.1 hs with ⟨moment, hmoment, rfl⟩
      cases hc : x.world.cancelled with
      | true =>
          -- A cancelled routine goes on at once, or is over.
          rw [hc] at hadvance
          exact absurd (Strand.isOver_of_heeding hx hadvance) hover
      | false =>
          refine ⟨hx, fun h => absurd h Bool.false_ne_true, fun t ht => ?_⟩
          simp only [World.nextMoment, hc, ht] at hmoment
          exact (List.min?_eq_some_iff.1 hmoment).2 _ (by simp)

theorem run_of_step_eq_none (h : x.step host = none) (n : Nat) : run host n x = x := by
  cases n with
  | zero => rfl
  | succ n => rw [run, h]

theorem run_add (m n : Nat) (x : Solo S α) :
    run host (m + n) x = run host n (run host m x) := by
  induction m generalizing x with
  | zero => rw [Nat.zero_add, run]
  | succ m ih =>
      rw [Nat.add_right_comm, run, run]
      cases hs : x.step host with
      | none => exact (run_of_step_eq_none hs n).symm
      | some y => exact ih y

/-- What holds of a run that heeds cancellation after a number of steps. -/
theorem heeds_run (hx : x.strand.Within heeding) (n : Nat) :
    (run host n x).strand.Within heeding ∧
      (x.world.cancelled = true → (run host n x).world.now = x.world.now) ∧
      ∀ t, host.cancelAt = some t → (run host n x).world.now ≤ max x.world.now t := by
  induction n generalizing x with
  | zero => exact ⟨hx, fun _ => rfl, fun _ _ => Nat.le_max_left _ _⟩
  | succ n ih =>
      rw [run]
      cases hs : x.step host with
      | none => exact ⟨hx, fun _ => rfl, fun _ _ => Nat.le_max_left _ _⟩
      | some y =>
          rcases heeds_of_step hx hs with ⟨hy, hstill, hinTime⟩
          rcases ih hy with ⟨hrun, hstill', hinTime'⟩
          refine ⟨hrun, fun hc => ?_, fun t ht => ?_⟩
          · rcases hstill hc with ⟨hcy, hnow⟩
            exact (hstill' hcy).trans hnow
          · have hnow := hinTime t ht
            have hnow' := hinTime' t ht
            exact Nat.le_trans hnow' (Nat.max_le.2 ⟨hnow, Nat.le_max_right _ _⟩)

/-- A step takes no time, or it finds the run cancelled if that is due. -/
theorem now_eq_or_cancelled_of_step (hs : x.step host = some y) :
    (y.world.now = x.world.now ∧ (x.world.cancelled = true → y.world.cancelled = true)) ∨
      ∀ t, host.cancelAt = some t → t ≤ y.world.now → y.world.cancelled = true := by
  unfold step at hs
  split at hs
  · rename_i w' s' hadvance
    cases hs
    rcases Strand.elapses_of_advance 0 hadvance with ⟨helapses, hnow⟩
    exact .inl ⟨hnow, helapses.cancelled⟩
  · split at hs
    · cases hs
    · rcases Option.map_eq_some_iff.1 hs with ⟨moment, -, rfl⟩
      right
      intro t ht hle
      have hle : t ≤ moment := hle
      simp [World.passTo, ht, hle]

/-- No run goes on for long without finding that it is cancelled. -/
theorem now_eq_or_cancelled_run (x : Solo S α) (n : Nat) {t : Nat} (ht : host.cancelAt = some t)
    (hle : t ≤ (run host n x).world.now) :
    (run host n x).world.now = x.world.now ∨ (run host n x).world.cancelled = true := by
  induction n with
  | zero => exact .inl rfl
  | succ n ih =>
      rw [run_succ] at hle ⊢
      cases hs : (run host n x).step host with
      | none =>
          rw [hs] at hle
          exact ih hle
      | some y =>
          rw [hs] at hle
          simp only [Option.getD_some] at hle ⊢
          rcases now_eq_or_cancelled_of_step hs with ⟨hnow, hcancelled⟩ | hcancelled
          · rw [hnow] at hle ⊢
            exact (ih hle).imp id hcancelled
          · exact .inr (hcancelled t ht hle)

/-- A run that heeds cancellation ends at the moment of its cancellation. -/
theorem now_of_cancelled (hx : x.strand.Within heeding) {n : Nat}
    (hend : (run host n x).step host = none) (i : Nat)
    (hi : (run host i x).world.cancelled = true) :
    (run host i x).world.now = (run host n x).world.now := by
  rcases Nat.le_total i n with hle | hle
  · rcases Nat.exists_eq_add_of_le hle with ⟨k, rfl⟩
    rw [run_add]
    exact ((heeds_run (heeds_run hx i).1 k).2.1 hi).symm
  · rcases Nat.exists_eq_add_of_le hle with ⟨k, rfl⟩
    rw [run_add, run_of_step_eq_none hend]

end Solo
end Routine
end TxWorkload
