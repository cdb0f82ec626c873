import TxWorkload.Proofs.Routine.Deadline
import TxWorkload.Proofs.Routine.Evaluation
import TxWorkload.Rpc.Attempt

/-!
# Attempt — the attempts of an operation

An attempt that succeeds is the last one. Behind a failure one line is written, and there is a pause
if waiting may help and another attempt is left; then that attempt is next, or the failure is the
outcome. So the attempts go on up to the first that succeeds or to the last one that is allowed, and
what is seen of them is what each of them shows, in order.
-/

namespace TxWorkload
namespace Rpc

open Routine

variable {S : Signature} {ε α : Type}

/-! ## Numbers of attempts -/

namespace Retry

/-- The greatest number of attempts; there is always one. -/
def limit (r : Retry) : Nat :=
  max 1 r.maxAttempts.toNat

variable {r : Retry}

theorem limit_pos : 0 < r.limit :=
  Nat.lt_of_lt_of_le Nat.one_pos (Nat.le_max_left 1 _)

theorem limit_lt : r.limit < UInt32.size :=
  Nat.max_lt.2 ⟨by decide, r.maxAttempts.toNat_lt_size⟩

theorem toNat_attempts : r.attempts.toNat = r.limit := by
  unfold attempts limit
  split
  · rename_i h
    rw [h]
    rfl
  · rename_i h
    have hpos : r.maxAttempts.toNat ≠ 0 := fun hzero => h (UInt32.toNat_inj.1 hzero)
    omega

theorem toNat_ofNat {k : Nat} (hk : k ≤ r.limit) : (UInt32.ofNat k).toNat = k :=
  UInt32.toNat_ofNat_of_lt' (Nat.lt_of_le_of_lt hk limit_lt)

end Retry

/-! ## The last attempt -/

/-- How the turn of an attempt comes out: it was the last one, or another one is next. -/
def turnAfter (r : Retry) (k : Nat) : Except ε α → UInt32 ⊕ Except ε α
  | .ok a => .inr (.ok a)
  | .error e => if k + 1 < r.limit then .inl (.ofNat (k + 1)) else .inr (.error e)

theorem turnAfter_cases (r : Retry) (k : Nat) (x : Except ε α) :
    turnAfter r k x = .inr x ∧ (k + 1 < r.limit → ∃ a, x = .ok a) ∨
      turnAfter r k x = .inl (.ofNat (k + 1)) ∧ k + 1 < r.limit ∧ ∃ e, x = .error e := by
  cases x with
  | ok a => exact .inl ⟨rfl, fun _ => ⟨a, rfl⟩⟩
  | error e =>
      by_cases hnext : k + 1 < r.limit
      · exact .inr ⟨if_pos hnext, hnext, e, rfl⟩
      · exact .inl ⟨if_neg hnext, fun h => absurd h hnext⟩

/-- An attempt is the last one that is made: none before it succeeds, and it succeeds or is the last
one that is allowed. -/
structure EndsAt (r : Retry) (outcome : Nat → Except ε α) (k : Nat) : Prop where
  lt : k < r.limit
  earlier : ∀ j < k, ∃ e, outcome j = .error e
  last : k + 1 < r.limit → ∃ a, outcome k = .ok a

variable {r : Retry} {k : Nat} {outcome : Nat → Except ε α}

/-- The last attempt is the first that succeeds, if there is one. -/
theorem EndsAt.eq_of_ok {j : Nat} {a : α} (h : EndsAt r outcome k) (hj : j < r.limit)
    (hok : outcome j = .ok a) (hearlier : ∀ i < j, ∃ e, outcome i = .error e) : k = j := by
  rcases Nat.lt_trichotomy k j with hlt | heq | hgt
  · rcases h.last (by omega) with ⟨b, hb⟩
    rcases hearlier k hlt with ⟨e, he⟩
    cases hb.symm.trans he
  · exact heq
  · rcases h.earlier j hgt with ⟨e, he⟩
    cases hok.symm.trans he

/-- Without success the last attempt is the last one that is allowed. -/
theorem EndsAt.succ_eq (h : EndsAt r outcome k)
    (hfails : ∀ j < r.limit, ∃ e, outcome j = .error e) : k + 1 = r.limit := by
  by_cases hnext : k + 1 < r.limit
  · rcases h.last hnext with ⟨a, ha⟩
    rcases hfails k h.lt with ⟨e, he⟩
    cases ha.symm.trans he
  · exact Nat.le_antisymm h.lt (Nat.le_of_not_lt hnext)

/-! ## Behind a failure -/

variable [Retryable ε]

/-- Whether there is a pause behind the failure of an attempt, counted from zero. -/
def pausesAfter (limit k : Nat) (e : ε) : Bool :=
  Retryable.isRetryable e && decide (k + 1 < limit)

/-- What is written behind the failure of an attempt, counted from zero. -/
def failureLine (limit k : Nat) (e : ε) : Level × String :=
  if Retryable.isRetryable e then
    if k + 1 < limit then (.warn, s!"RPC request failed (attempt {k + 1}): {Retryable.message e}")
    else (.error, s!"RPC request failed after {limit} attempts: {Retryable.message e}")
  else (.warn, Retryable.message e)

/-- The pause behind a failure, if there is one. -/
def rest (r : Retry) (k : Nat) (e : ε) (w : World S) : List (Deed S) :=
  if pausesAfter r.limit k e then w.deeds (some (.sleeps (r.delayFor (.ofNat k)))) else []

/-- What a failure leaves behind: its line, and the end of the pause if there is one. -/
structure Recovers (host : Host S) (r : Retry) (k : Nat) (e : ε) (w w₁ : World S) : Prop where
  past : w₁.past = w.past
  now : w₁.now =
    if pausesAfter r.limit k e then host.clock.deadline w.now (r.delayFor (.ofNat k)) else w.now
  journal : w₁.journal =
    ⟨w.now, .logged (failureLine r.limit k e).1 (failureLine r.limit k e).2⟩ :: w.journal

variable {host : Host S} {w w₁ : World S} {deeds : List (Deed S)}

theorem evaluates_log (host : Host S) (w : World S) (level : Level) (text : String) :
    (log level text : Routine S Unit).Evaluates host w [] () (w.note (.logged level text)) :=
  evaluates_act.2 ⟨rfl, rfl⟩

/-- The line before a pause takes no time. -/
theorem evaluates_logThenSleep (host : Host S) (w : World S) (level : Level) (text : String)
    (d : Duration) :
    ∃ w₁, (do
        log level text
        sleep d : Routine S Unit).Evaluates host w (w.deeds (some (.sleeps d))) () w₁ ∧
      w₁.past = w.past ∧ w₁.now = host.clock.deadline w.now d ∧
        w₁.journal = ⟨w.now, .logged level text⟩ :: w.journal := by
  rcases evaluates_sleep host (w.note (.logged level text)) d with
    ⟨w₁, hsleep, hslept, hpast, hjournal⟩
  have hwoke : w₁.now = max w.now (host.clock.deadline w.now d) := hslept
  refine ⟨w₁, evaluates_bind.2 ⟨(), _, [], _, evaluates_log host w level text, hsleep, rfl⟩, hpast,
    ?_, hjournal⟩
  rw [hwoke, Nat.max_eq_right (host.clock.le_deadline _ _)]

/-- The two questions, whether waiting may help and whether another attempt is left, decide on the
line and on the pause. -/
theorem afterFailure_eq (hk : k < r.limit) (e : ε) :
    (afterFailure r (.ofNat k) (decide (r.limit ≤ k + 1)) e : Routine S Unit) =
      if pausesAfter r.limit k e then do
        log (failureLine r.limit k e).1 (failureLine r.limit k e).2
        sleep (r.delayFor (.ofNat k))
      else log (failureLine r.limit k e).1 (failureLine r.limit k e).2 := by
  have hnumber : (UInt32.ofNat k).toNat = k := Retry.toNat_ofNat (Nat.le_of_lt hk)
  have hlimit : toString r.attempts = toString r.limit := congrArg toString r.toNat_attempts
  by_cases hretryable : Retryable.isRetryable e = true
  · by_cases hnext : k + 1 < r.limit
    · have hlast : decide (r.limit ≤ k + 1) = false := by simpa using hnext
      simp [afterFailure, pausesAfter, failureLine, hretryable, hnext, hlast, hnumber]
    · have hlast : decide (r.limit ≤ k + 1) = true := by simpa using hnext
      simp [afterFailure, pausesAfter, failureLine, hretryable, hnext, hlast, hlimit]
  · simp [afterFailure, pausesAfter, failureLine, hretryable]

theorem evaluates_afterFailure (host : Host S) (w : World S) (hk : k < r.limit) (e : ε) :
    ∃ w₁, (afterFailure r (.ofNat k) (decide (r.limit ≤ k + 1)) e : Routine S Unit).Evaluates host w
      (rest r k e w) () w₁ ∧ Recovers host r k e w w₁ := by
  rw [afterFailure_eq hk e, rest]
  by_cases hpauses : pausesAfter r.limit k e = true
  · rw [if_pos hpauses, if_pos hpauses]
    rcases evaluates_logThenSleep host w _ _ (r.delayFor (.ofNat k)) with
      ⟨w₁, h, hpast, hnow, hjournal⟩
    exact ⟨w₁, h, hpast, by rw [hnow, if_pos hpauses], hjournal⟩
  · rw [if_neg hpauses, if_neg hpauses]
    exact ⟨_, evaluates_log host w _ _, rfl, (if_neg hpauses).symm, rfl⟩

/-! ## One attempt -/

variable (op : UInt32 → Routine S (Except ε α))

theorem evaluates_attempt_ok {a : α}
    (h : (op (.ofNat k)).Evaluates host w deeds (.ok a) w₁) :
    (attempt r op (.ofNat k)).Evaluates host w deeds (turnAfter r k (.ok a)) w₁ :=
  evaluates_bind.2 ⟨_, w₁, deeds, [], h, evaluates_pure.2 ⟨rfl, rfl, rfl⟩,
    (List.append_nil _).symm⟩

/-- The turn behind a failure: the next attempt, or the end. -/
theorem evaluates_attempt_error {e : ε} (hk : k < r.limit)
    (h : (op (.ofNat k)).Evaluates host w deeds (.error e) w₁) :
    ∃ w₂, (attempt r op (.ofNat k)).Evaluates host w (deeds ++ rest r k e w₁)
        (turnAfter r k (.error e)) w₂ ∧
      Recovers host r k e w₁ w₂ := by
  have hlast : decide (r.attempts.toNat ≤ (UInt32.ofNat k).toNat + 1) =
      decide (r.limit ≤ k + 1) := by
    rw [Retry.toNat_attempts, Retry.toNat_ofNat (Nat.le_of_lt hk)]
  rcases evaluates_afterFailure host w₁ hk e with ⟨w₂, hafter, hrecovers⟩
  refine ⟨w₂, evaluates_bind.2 ⟨_, w₁, deeds, rest r k e w₁, h, ?_, rfl⟩, hrecovers⟩
  dsimp only [turnAfter]
  rw [hlast]
  refine evaluates_bind.2 ⟨(), w₂, _, [], hafter, ?_, (List.append_nil _).symm⟩
  by_cases hnext : k + 1 < r.limit
  · have hnot : ¬ decide (r.limit ≤ k + 1) = true := by simpa using hnext
    rw [if_pos hnext, if_neg hnot, UInt32.ofNat_add]
    exact evaluates_pure.2 ⟨rfl, rfl, rfl⟩
  · have hall : decide (r.limit ≤ k + 1) = true := by simpa using hnext
    rw [if_neg hnext, if_pos hall]
    exact evaluates_pure.2 ⟨rfl, rfl, rfl⟩

/-! ## All attempts -/

variable {op} {T : Type} {stands : Nat → World S → Prop} {view : Deed S → T} {share : Nat → List T}

/-- Whether every attempt comes out as told: begun in a world that stands for its number, behind
failures only, it shows its share of deeds and leaves a world that stands for the next number. -/
def Attempts (host : Host S) (r : Retry) (op : UInt32 → Routine S (Except ε α))
    (outcome : Nat → Except ε α) (stands : Nat → World S → Prop) (view : Deed S → T)
    (share : Nat → List T) : Prop :=
  ∀ k w, k < r.limit → (∀ j < k, ∃ e, outcome j = .error e) → stands k w → ∃ deeds w₁,
    (attempt r op (.ofNat k)).Evaluates host w deeds (turnAfter r k (outcome k)) w₁ ∧
      deeds.map view = share k ∧ stands (k + 1) w₁

/-- From some attempt on, attempts are made until one succeeds or none is left. -/
theorem exists_turns (h : Attempts host r op outcome stands view share) {k : Nat} {w : World S}
    (hk : k < r.limit) (hearlier : ∀ j < k, ∃ e, outcome j = .error e) (hw : stands k w) :
    ∃ more deeds w₁,
      Turns (fun s w deeds turn w' => (attempt r op s).Evaluates host w deeds turn w') (.ofNat k) w
        deeds (outcome (k + more)) w₁ ∧
      EndsAt r outcome (k + more) ∧ stands (k + more + 1) w₁ ∧
      deeds.map view = (List.range' k (more + 1)).flatMap share := by
  rcases h k w hk hearlier hw with ⟨deeds, w₁, hattempt, hview, hw₁⟩
  rcases turnAfter_cases r k (outcome k) with ⟨hturn, hlast⟩ | ⟨hturn, hnext, hfails⟩
  · rw [hturn] at hattempt
    exact ⟨0, deeds, w₁, .last hattempt, ⟨hk, hearlier, hlast⟩, hw₁,
      hview.trans (List.append_nil _).symm⟩
  · rw [hturn] at hattempt
    have hearlier' : ∀ j < k + 1, ∃ e, outcome j = .error e := by
      intro j hj
      rcases Nat.lt_succ_iff_lt_or_eq.1 hj with hj | rfl
      · exact hearlier j hj
      · exact hfails
    rcases exists_turns h hnext hearlier' hw₁ with ⟨more, deeds', w₂, hturns, hends, hw₂, hmore⟩
    have hcount : k + 1 + more = k + (more + 1) := by omega
    rw [hcount] at hturns hends hw₂
    refine ⟨more + 1, deeds ++ deeds', w₂, .more hattempt hturns, hends, hw₂, ?_⟩
    rw [List.map_append, hview, hmore]
    simp only [List.range'_succ, List.flatMap_cons]
termination_by r.limit - k

/-- Trying an operation comes out as the last attempt that is made. -/
theorem exists_withRetry (h : Attempts host r op outcome stands view share) (hw : stands 0 w) :
    ∃ k deeds w₁, (withRetry r op).Evaluates host w deeds (outcome k) w₁ ∧
      EndsAt r outcome k ∧ stands (k + 1) w₁ ∧
      deeds.map view = (List.range (k + 1)).flatMap share := by
  rcases exists_turns h Retry.limit_pos (fun j hj => absurd hj (Nat.not_lt_zero j)) hw with
    ⟨k, deeds, w₁, hturns, hends, hw₁, hview⟩
  rw [Nat.zero_add] at hturns hends hw₁
  refine ⟨k, deeds, w₁, evaluates_iterate.2 hturns, hends, hw₁, ?_⟩
  rw [hview, List.range_eq_range']

end Rpc
end TxWorkload
