import Mathlib.Data.Nat.Find
import TxWorkload.Proofs.Routine.Outcome

/-!
# Laps — how the loop of a routine comes round

A loop passes through the states between its turns, and comes to a result if one of its turns does.
Each turn takes at least one step. So if every turn ends or stalls, a loop passes as many turns as
one likes, unless it comes to a result or stalls. Once the run is cancelled, it does come to a
result, if a turn that begins then is the last one.
-/

namespace TxWorkload
namespace Routine

variable {S : Signature} {α β γ σ : Type} {host : Host S} {w w₁ w' : World S}

/-! ## Waits that never end -/

/-- A run hangs if its steps lead to a wait that never ends. -/
def Solo.Hangs (host : Host S) (x : Solo S α) : Prop :=
  ∃ n, Stuck host (run host n x)

theorem Solo.hangs_of_run {x : Solo S α} {n : Nat} (h : Hangs host (run host n x)) :
    Hangs host x := by
  rcases h with ⟨m, hm⟩
  rw [← run_add] at hm
  exact ⟨n + m, hm⟩

/-- A routine stalls if it hangs, whatever follows it. -/
def Stalls (host : Host S) (p : Routine S α) (w : World S) : Prop :=
  ∀ (β : Type) (k : α → Routine S β), Solo.Hangs host (Solo.start w (p.andThen k))

theorem Stalls.hangs {p : Routine S α} (h : Stalls host p w) :
    Solo.Hangs host (Solo.start w p) := by
  have hhangs := h _ pure
  rwa [show p.andThen pure = p from bind_pure p] at hhangs

theorem stalls_bind_left {p : Routine S α} (k : α → Routine S β) (h : Stalls host p w) :
    Stalls host (p >>= k) w := by
  intro γ l
  have hhangs := h _ fun a => (k a).andThen l
  rwa [← andThen_andThen] at hhangs

theorem stalls_bind_right {p : Routine S α} {k : α → Routine S β} {a : α}
    (hp : p.ComesTo host w a w₁) (h : Stalls host (k a) w₁) : Stalls host (p >>= k) w := by
  intro γ l
  rcases comesTo_iff.1 hp with ⟨deeds, hdeeds⟩
  rcases Solo.leads_of_evaluates hdeeds fun a => (k a).andThen l with ⟨n, hn⟩
  -- The steps of the first routine lead to the second one, which hangs.
  have hhangs := h _ l
  rw [Solo.start, ← hn.run_eq.1, ← andThen_andThen] at hhangs
  exact Solo.hangs_of_run hhangs

/-- The licence to do what always has a value, and to wait in races against cancellation. -/
def steadfast : Licence S where
  effect e := ∀ (host : Host S) (token : Bool) (w : World S), ∃ b w', w.perform host token e =
    .value b w'
  wait raced _ _ := raced = true
  loops := False

/-- What is steadfast comes to a result, unless it stalls. -/
theorem comesTo_or_stalls {p : Routine S α} (hp : p.Within steadfast) (host : Host S)
    (w : World S) : (∃ a w', p.ComesTo host w a w') ∨ Stalls host p w := by
  induction p generalizing w with
  | done a => exact .inl ⟨a, w, comesTo_pure.2 ⟨rfl, rfl⟩⟩
  | perform e next ih =>
      rcases hp.1 host w.cancelled w with ⟨b, w₁, he⟩
      have hact : (act e).ComesTo host w b w₁ := comesTo_act.2 he
      rcases ih b (hp.2 b) w₁ with ⟨a, w', ha⟩ | hstalls
      · exact .inl ⟨a, w', comesTo_bind.2 ⟨b, w₁, hact, ha⟩⟩
      · exact .inr (stalls_bind_right (k := next) hact hstalls)
  | wait what next _ => cases hp.1
  | race what next ih =>
      by_cases hraced : ∃ answer w₁, Raced host w what answer w₁
      · rcases hraced with ⟨answer, w₁, hraced⟩
        rcases ih answer (hp.2 answer) w₁ with ⟨a, w', ha⟩ | hstalls
        · exact .inl ⟨a, w', comesTo_race.2 ⟨answer, w₁, hraced, ha⟩⟩
        · right
          intro γ k
          rcases Solo.leads_raced (fun answer => (next answer).andThen k) hraced with ⟨n, hn⟩
          have hhangs := hstalls _ k
          rw [Solo.start, ← hn.run_eq.1] at hhangs
          exact Solo.hangs_of_run hhangs
      · right
        intro γ k
        rcases Solo.raced_or_stuck host w what fun answer => (next answer).andThen k with
          hends | ⟨n, deeds, y, hy, hstuck⟩
        · exact absurd hends hraced
        · rw [← hy.run_eq.1] at hstuck
          exact ⟨n, hstuck⟩
  | loop s body next _ _ => exact hp.1.elim

/-! ## Cancellation -/

namespace Solo

variable {x y : Solo S α}

/-- A cancellation is for good. -/
theorem cancelled_of_step (hs : x.step host = some y) (hx : x.world.cancelled = true) :
    y.world.cancelled = true := by
  unfold step at hs
  split at hs
  · rename_i w' s' hadvance
    cases hs
    exact (Strand.elapses_of_advance 0 hadvance).1.cancelled hx
  · split at hs
    · cases hs
    · rcases Option.map_eq_some_iff.1 hs with ⟨moment, -, rfl⟩
      exact World.cancelled_passTo _ _ _ hx

theorem cancelled_run (hx : x.world.cancelled = true) (n : Nat) :
    (run host n x).world.cancelled = true := by
  induction n generalizing x with
  | zero => exact hx
  | succ n ih =>
      rw [run]
      cases hs : x.step host with
      | none => exact hx
      | some y => exact ih (cancelled_of_step hs hx)

theorem cancelled_run_of_le {n m : Nat} (hn : (run host n x).world.cancelled = true)
    (hle : n ≤ m) : (run host m x).world.cancelled = true := by
  rcases Nat.exists_eq_add_of_le hle with ⟨k, rfl⟩
  rw [run_add]
  exact cancelled_run hn k

/-- Whether a run becomes cancelled at a moment. -/
def CancelledAt (host : Host S) (x : Solo S α) (moment : Nat) : Prop :=
  ∃ n, (run host n x).world.cancelled = true ∧ (run host n x).world.now = moment ∧
    ∀ k < n, (run host k x).world.cancelled = false

/-- Steps that take no time and cancel nothing leave the moment of the cancellation alone. -/
theorem CancelledAt.of_run {moment m : Nat} (h : CancelledAt host x moment)
    (hcancelled : (run host m x).world.cancelled = x.world.cancelled)
    (hnow : (run host m x).world.now = x.world.now) : CancelledAt host (run host m x) moment := by
  rcases h with ⟨n, hn, rfl, hfirst⟩
  rcases Nat.le_total m n with hle | hle
  · rcases Nat.exists_eq_add_of_le hle with ⟨k, rfl⟩
    rw [run_add] at hn ⊢
    refine ⟨k, hn, rfl, fun j hj => ?_⟩
    rw [← run_add]
    exact hfirst _ (Nat.add_lt_add_left hj m)
  · -- The run was cancelled from the beginning.
    have hx : x.world.cancelled = true := hcancelled.symm.trans (cancelled_run_of_le hn hle)
    have hzero : n = 0 := by
      refine Nat.eq_zero_of_not_pos fun hpos => ?_
      exact absurd (hx.symm.trans (hfirst 0 hpos)) (by decide)
    subst hzero
    exact ⟨0, hcancelled.trans hx, hnow, fun j hj => absurd hj (Nat.not_lt_zero j)⟩

/-- A run that is cancelled became cancelled at some moment. -/
theorem exists_cancelledAt {n : Nat} (hn : (run host n x).world.cancelled = true) :
    ∃ moment, CancelledAt host x moment := by
  classical
  have hexists : ∃ n, (run host n x).world.cancelled = true := ⟨n, hn⟩
  refine ⟨_, Nat.find hexists, Nat.find_spec hexists, rfl, fun k hk => ?_⟩
  exact Bool.eq_false_iff.2 (Nat.find_min hexists hk)

/-- Time does not go back. -/
theorem now_le_of_step (hs : x.step host = some y) : x.world.now ≤ y.world.now := by
  rcases x with ⟨w, s⟩
  unfold step at hs
  split at hs
  · rename_i w' s' hadvance
    cases hs
    exact (Strand.elapses_of_advance 0 hadvance).1.later
  · rename_i hadvance
    split at hs
    · cases hs
    · rcases Option.map_eq_some_iff.1 hs with ⟨moment, hmoment, rfl⟩
      rcases World.nextMoment_spec hmoment with hdue | ⟨-, t, -, rfl⟩
      · exact Nat.le_of_lt (Strand.lt_due_of_advance hadvance hdue)
      · exact Nat.le_max_left _ _

theorem now_le_run (x : Solo S α) (n : Nat) : x.world.now ≤ (run host n x).world.now := by
  induction n generalizing x with
  | zero => exact Nat.le_refl _
  | succ n ih =>
      rw [run]
      cases hs : x.step host with
      | none => exact Nat.le_refl _
      | some y => exact Nat.le_trans (now_le_of_step hs) (ih y)

/-- As long as a run is not cancelled, the moment of its cancellation has not passed. -/
theorem now_le_of_cancelledAt {n moment : Nat} (hn : run host n x = y)
    (hactive : y.world.cancelled = false) (h : CancelledAt host x moment) :
    y.world.now ≤ moment := by
  rcases h with ⟨m, hm, rfl, -⟩
  rw [← hn] at hactive ⊢
  rcases Nat.le_total m n with hle | hle
  · exact absurd ((cancelled_run_of_le hm hle).symm.trans hactive) (by decide)
  · rcases Nat.exists_eq_add_of_le hle with ⟨k, rfl⟩
    rw [run_add]
    exact now_le_run _ k

/-- A run that hangs is never cancelled. -/
theorem Hangs.active (h : Hangs host x) (n : Nat) : (run host n x).world.cancelled = false := by
  rcases h with ⟨m, hm⟩
  rcases Nat.le_total n m with hle | hle
  · refine Bool.eq_false_iff.2 fun hn => ?_
    exact absurd ((cancelled_run_of_le hn hle).symm.trans hm.active) (by decide)
  · rcases Nat.exists_eq_add_of_le hle with ⟨k, rfl⟩
    rw [run_add, run_of_step_eq_none hm.last]
    exact hm.active

/-- A run that returns ends at the moment of its cancellation, if all its waits race against it. -/
theorem now_of_cancelledAt {p : Routine S α} {a : α} {moment : Nat} (hp : p.Within heeding)
    (h : p.ComesTo host w a w') (hcancel : CancelledAt host (start w p) moment) :
    w'.now = moment ∧ w'.cancelled = true := by
  rcases h with ⟨n, hn⟩
  rcases hcancel with ⟨m, hm, rfl, -⟩
  have hlast : (run host n (start w p)).step host = none := by
    rw [hn]
    rfl
  have hnow := now_of_cancelled (x := start w p) hp hlast m hm
  rw [hn] at hnow
  refine ⟨hnow.symm, ?_⟩
  -- A run that has ended stays as it is, so it was cancelled at its end at the latest.
  rcases Nat.le_total m n with hle | hle
  · have hcancelled := cancelled_run_of_le hm hle
    rwa [hn] at hcancelled
  · rwa [run_of_comesTo hn hle] at hm

/-- A run that ends cancelled was cancelled at the moment of its end. -/
theorem cancelledAt_of_comesTo {p : Routine S α} {a : α} (hp : p.Within heeding)
    (h : p.ComesTo host w a w') (hw' : w'.cancelled = true) :
    CancelledAt host (start w p) w'.now := by
  rcases h with ⟨n, hn⟩
  have hcancelled : (run host n (start w p)).world.cancelled = true := by rwa [hn]
  rcases exists_cancelledAt hcancelled with ⟨moment, hmoment⟩
  exact (now_of_cancelledAt hp ⟨n, hn⟩ hmoment).1 ▸ hmoment

/-- A run ends before it is to be cancelled from outside, or then. -/
theorem now_le_of_cancelAt {p : Routine S α} {a : α} {t : Nat} (hp : p.Within heeding)
    (h : p.ComesTo host w a w') (ht : host.cancelAt = some t) : w'.now ≤ max w.now t := by
  rcases h with ⟨n, hn⟩
  have hinTime := (heeds_run (x := start w p) hp n).2.2 t ht
  rwa [hn] at hinTime

end Solo

/-! ## Laps -/

/-- After a number of laps, a loop is about to begin its next turn. -/
inductive Laps (host : Host S) (body : σ → Routine S (σ ⊕ β)) (s₀ : σ) (w₀ : World S) :
    Nat → σ → World S → Prop
  | start : Laps host body s₀ w₀ 0 s₀ w₀
  | lap {k : Nat} {s s' : σ} {w w' : World S} (h : Laps host body s₀ w₀ k s w)
      (hturn : (body s).ComesTo host w (.inl s') w') : Laps host body s₀ w₀ (k + 1) s' w'

variable {body : σ → Routine S (σ ⊕ β)} {s₀ s s' : σ} {w₀ : World S} {k : Nat}

/-- A lap of a loop takes some steps, whatever follows the loop. -/
theorem exists_lap (next : β → Routine S γ) (hturn : (body s).ComesTo host w (.inl s') w') :
    ∃ n, Solo.run host (n + 1) (Solo.start w (.loop s body next)) =
      Solo.start w' (.loop s' body next) := by
  rcases comesTo_iff.1 hturn with ⟨deeds, h⟩
  rcases Solo.leads_of_evaluates h (onward body next) with ⟨n, hn⟩
  exact ⟨n, hn.run_eq.1⟩

namespace Laps

/-- A loop passes through the states between its turns, and takes a step at least for each turn. -/
theorem passes (h : Laps host body s₀ w₀ k s w) (next : β → Routine S γ) :
    ∃ n, k ≤ n ∧
      Solo.run host n (Solo.start w₀ (.loop s₀ body next)) = Solo.start w (.loop s body next) := by
  induction h with
  | start => exact ⟨0, Nat.le_refl 0, rfl⟩
  | lap _ hturn ih =>
      rcases ih with ⟨n, hle, hn⟩
      rcases exists_lap next hturn with ⟨m, hm⟩
      refine ⟨n + (m + 1), by omega, ?_⟩
      rw [Solo.run_add, hn, hm]

/-- There is one way only to come round. -/
theorem unique {s' : σ} (h : Laps host body s₀ w₀ k s w) (h' : Laps host body s₀ w₀ k s' w') :
    s = s' ∧ w = w' := by
  induction h generalizing s' w' with
  | start =>
      cases h'
      exact ⟨rfl, rfl⟩
  | lap _ hturn ih =>
      cases h' with
      | lap hlaps hturn' =>
          rcases ih hlaps with ⟨rfl, rfl⟩
          rcases hturn.unique hturn' with ⟨hs, hw⟩
          exact ⟨Sum.inl.inj hs, hw⟩

/-- A loop makes no more laps than those before its last turn. -/
theorem le_of_ends {k' : Nat} {s' : σ} {b : β} {w'' : World S}
    (h : Laps host body s₀ w₀ k s w) (hlast : (body s).ComesTo host w (.inr b) w'')
    (h' : Laps host body s₀ w₀ k' s' w') : k' ≤ k := by
  induction h' with
  | start => exact Nat.zero_le k
  | lap hlaps hturn ih =>
      -- A turn that comes to an end does not come round as well.
      refine Nat.lt_of_le_of_ne ih ?_
      rintro rfl
      rcases h.unique hlaps with ⟨rfl, rfl⟩
      cases (hlast.unique hturn).1

theorem cons {s₁ : σ} (hturn : (body s₀).ComesTo host w₀ (.inl s₁) w₁)
    (h : Laps host body s₁ w₁ k s w) : Laps host body s₀ w₀ (k + 1) s w := by
  induction h with
  | start => exact .lap .start hturn
  | lap _ hnext ih => exact .lap ih hnext

end Laps

/-- A loop comes to a result if and only if one of its turns does. -/
theorem comesTo_iterate {b : β} :
    (iterate s₀ body).ComesTo host w₀ b w' ↔
      ∃ k s w, Laps host body s₀ w₀ k s w ∧ (body s).ComesTo host w (.inr b) w' := by
  constructor
  · intro hresult
    rcases comesTo_iff.1 hresult with ⟨deeds, h⟩
    have hturns := evaluates_iterate.1 h
    clear h hresult
    induction hturns with
    | last hturn => exact ⟨0, _, _, .start, comesTo_iff.2 ⟨_, hturn⟩⟩
    | more hturn _ ih =>
        rcases ih with ⟨k, s, w, hlaps, hlast⟩
        exact ⟨k + 1, s, w, hlaps.cons (comesTo_iff.2 ⟨_, hturn⟩), hlast⟩
  · rintro ⟨k, s, w, hlaps, hlast⟩
    rcases hlaps.passes .done with ⟨n, -, hn⟩
    rcases comesTo_iff.1 hlast with ⟨deeds, hlast⟩
    rcases comesTo_iff.2 ⟨deeds, evaluates_iterate.2 (.last hlast)⟩ with ⟨m, hm⟩
    refine ⟨n + m, ?_⟩
    rw [Solo.run_add, iterate, hn]
    exact hm

/-- Whether every turn that a loop begins ends or stalls. -/
def Steady (host : Host S) (body : σ → Routine S (σ ⊕ β)) (s₀ : σ) (w₀ : World S) : Prop :=
  ∀ k s w, Laps host body s₀ w₀ k s w →
    (∃ turn w', (body s).ComesTo host w turn w') ∨ Stalls host (body s) w

/-- A loop whose turn stalls does so itself. -/
theorem Laps.stalls (h : Laps host body s₀ w₀ k s w) (hstalls : Stalls host (body s) w) :
    Stalls host (iterate s₀ body) w₀ := by
  intro γ next
  rcases h.passes next with ⟨n, -, hn⟩
  have hturn : Solo.Hangs host (Solo.start w (.loop s body next)) :=
    Solo.hangs_of_run (n := 1) (hstalls _ (onward body next))
  rw [← hn] at hturn
  exact Solo.hangs_of_run hturn

/-- A loop makes as many laps as one likes, unless it comes to a result or stalls. -/
theorem laps_or_ends (hsteady : Steady host body s₀ w₀) (k : Nat) :
    (∃ s w, Laps host body s₀ w₀ k s w) ∨ (∃ b w', (iterate s₀ body).ComesTo host w₀ b w') ∨
      Stalls host (iterate s₀ body) w₀ := by
  induction k with
  | zero => exact .inl ⟨s₀, w₀, .start⟩
  | succ k ih =>
      rcases ih with ⟨s, w, h⟩ | hends
      · rcases hsteady k s w h with ⟨turn, w', hturn⟩ | hstalls
        · cases turn with
          | inl s' => exact .inl ⟨s', w', h.lap hturn⟩
          | inr b => exact .inr (.inl ⟨b, w', comesTo_iterate.2 ⟨k, s, w, h, hturn⟩⟩)
        · exact .inr (.inr (h.stalls hstalls))
      · exact .inr hends

/-- A loop comes to a result once the run is cancelled, if a turn that begins then is the last
one. -/
theorem comesTo_of_cancelled (hsteady : Steady host body s₀ w₀)
    (hquits : ∀ s w, w.cancelled = true → ∃ b w', (body s).ComesTo host w (.inr b) w')
    {next : β → Routine S γ} {n : Nat}
    (hn : (Solo.run host n (Solo.start w₀ (.loop s₀ body next))).world.cancelled = true) :
    ∃ b w', (iterate s₀ body).ComesTo host w₀ b w' := by
  -- After as many laps as there were steps, the cancellation lies behind.
  rcases laps_or_ends hsteady n with ⟨s, w, h⟩ | hends | hstalls
  · rcases h.passes next with ⟨m, hle, hm⟩
    have hcancelled := Solo.cancelled_run_of_le hn hle
    rw [hm] at hcancelled
    rcases hquits s w hcancelled with ⟨b, w', hlast⟩
    exact ⟨b, w', comesTo_iterate.2 ⟨n, s, w, h, hlast⟩⟩
  · exact hends
  · exact absurd (hn.symm.trans ((hstalls _ next).active n)) (by decide)

/-- A loop comes to a result if the run is to be cancelled from outside and each lap takes time. -/
theorem comesTo_of_cancelAt (hsteady : Steady host body s₀ w₀)
    (hheeds : (iterate s₀ body).Within heeding)
    (htime : ∀ {s s' : σ} {w w'}, (body s).ComesTo host w (.inl s') w' → w.now < w'.now) {t : Nat}
    (ht : host.cancelAt = some t) : ∃ b w', (iterate s₀ body).ComesTo host w₀ b w' := by
  have hlong : ∀ {k s w}, Laps host body s₀ w₀ k s w → w₀.now + k ≤ w.now := by
    intro k s w h
    induction h with
    | start => exact Nat.le_refl _
    | lap _ hturn ih =>
        have hlater := htime hturn
        omega
  -- So many laps take longer than the run may last.
  rcases laps_or_ends hsteady (t + 1) with ⟨s, w, h⟩ | hends | hstalls
  · rcases h.passes .done with ⟨n, -, hn⟩
    have hinTime := (Solo.heeds_run (x := Solo.start w₀ (iterate s₀ body)) hheeds n).2.2 t ht
    have hlater := hlong h
    rw [iterate, hn] at hinTime
    simp only [Solo.start] at hinTime
    omega
  · exact hends
  · rcases hstalls.hangs with ⟨n, hstuck⟩
    cases ht.symm.trans hstuck.forever

end Routine
end TxWorkload
