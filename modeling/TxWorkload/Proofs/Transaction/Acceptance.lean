import TxWorkload.Proofs.Random.Weighted
import TxWorkload.Proofs.Transaction.WellFormed

/-!
# Acceptance — what becomes of a table of patterns

A table is sound if it has a pattern, and every pattern has a weight and an amount. Tables that are
not sound are refused with an error. Of a sound table nothing but the sum of the weights is left to
go wrong: it is added up in 32-bit arithmetic, and where an addition overflows there is neither a
generator nor an error.
-/

namespace TxWorkload

/-! ## Sums of weights -/

namespace Random

/-- The sum of two 32-bit numbers, unless it overflows. -/
def plus? (a b : UInt32) : Option UInt32 :=
  if a.toNat + b.toNat < UInt32.size then some (a + b) else none

/-- Weights added one after the other, unless an addition overflows. -/
def sum? (weights : List UInt32) : Option UInt32 :=
  weights.foldlM plus? 0

theorem toNat_foldlM_plus? (weights : List UInt32) (start : UInt32) :
    (weights.foldlM plus? start).map UInt32.toNat =
      if start.toNat + total (weights.map UInt32.toNat) < UInt32.size then
        some (start.toNat + total (weights.map UInt32.toNat))
      else none := by
  induction weights generalizing start with
  | nil =>
      have hfits : start.toNat < UInt32.size := start.toNat_lt_size
      simp [hfits, pure]
  | cons w weights ih =>
      rw [List.foldlM_cons, List.map_cons, total_cons]
      by_cases hfits : start.toNat + w.toNat < UInt32.size
      · have hsum : (start + w).toNat = start.toNat + w.toNat := by
          rw [UInt32.toNat_add]
          exact Nat.mod_eq_of_lt hfits
        rw [plus?, if_pos hfits, ← Nat.add_assoc, ← hsum]
        exact ih (start + w)
      · -- No later weight makes up for the overflow.
        have hlate : ¬ start.toNat + (w.toNat + total (weights.map UInt32.toNat)) <
            UInt32.size := by
          omega
        rw [plus?, if_neg hfits, if_neg hlate]
        rfl

/-- Weights add up in 32-bit arithmetic if and only if their sum is a 32-bit number. -/
theorem toNat_sum? (weights : List UInt32) :
    (sum? weights).map UInt32.toNat =
      if total (weights.map UInt32.toNat) < UInt32.size then
        some (total (weights.map UInt32.toNat))
      else none := by
  have h := toNat_foldlM_plus? weights 0
  rwa [UInt32.toNat_zero, Nat.zero_add] at h

end Random

namespace Transaction

/-! ## Tables -/

namespace Pattern

/-- Whether a table has a pattern, and every pattern of it a weight and an amount. -/
structure Sound (patterns : List Pattern) : Prop where
  nonempty : patterns ≠ []
  weight : ∀ p ∈ patterns, p.weight ≠ 0
  amount : ∀ p ∈ patterns, p.least ≤ p.most

theorem tableFlaw?_eq_none_iff {patterns : List Pattern} :
    tableFlaw? patterns = none ↔ Sound patterns := by
  constructor
  · intro h
    refine ⟨?_, ?_, ?_⟩
    · rintro rfl
      cases h
    · intro p hp
      exact (sound_of_flaw? (flaw?_eq_none h hp)).1
    · intro p hp
      exact least_le_most h hp
  · rintro ⟨hnonempty, hweight, hamount⟩
    have hempty : patterns.isEmpty = false := by simpa using hnonempty
    rw [tableFlaw?, hempty]
    apply List.findSome?_eq_none_iff.2
    intro p hp
    simp [flaw?, hweight p hp, UInt64.not_lt.2 (hamount p hp)]

theorem validate_eq_ok_iff {patterns : List Pattern} :
    validate patterns = .ok () ↔ Sound patterns := by
  rw [← tableFlaw?_eq_none_iff, validate]
  cases tableFlaw? patterns <;> simp

end Pattern

/-! ## Generators -/

namespace Generator

open Pattern (Sound validate weights)
open TxWorkload.Random (sum? toNat_sum? total)

variable {pool : Account.Pool} {patterns : List Pattern}

theorem total_weights (patterns : List Pattern) :
    total ((patterns.map Pattern.weight).map UInt32.toNat) = total (weights patterns) := by
  rw [List.map_map]
  rfl

theorem sum?_eq_none_iff :
    sum? (patterns.map Pattern.weight) = none ↔ ¬ total (weights patterns) < UInt32.size := by
  have h := toNat_sum? (patterns.map Pattern.weight)
  rw [total_weights] at h
  rw [← Option.map_eq_none_iff (f := UInt32.toNat), h]
  simp

theorem eq_of_parts {g g' : Generator} (hpool : g.pool = g'.pool)
    (hpatterns : g.patterns = g'.patterns) : g = g' := by
  cases g
  cases g'
  cases hpool
  cases hpatterns
  rfl

/-- What becomes of a table: it is refused with a flaw, held as it is, or neither, in this order. -/
inductive Outcome (pool : Account.Pool) (patterns : List Pattern) :
    Except Failure Generator → Prop
  | refused {reason : String} (hsound : ¬ Sound patterns)
      (hflaw : validate patterns = .error (.invalidPattern reason)) :
      Outcome pool patterns (.error (.error (.invalidPattern reason)))
  | held {g : Generator} (hsound : Sound patterns)
      (hsum : sum? (patterns.map Pattern.weight) ≠ none) (hpool : g.pool = pool)
      (hpatterns : g.patterns = patterns) : Outcome pool patterns (.ok g)
  | overflow (hsound : Sound patterns) (hsum : sum? (patterns.map Pattern.weight) = none) :
      Outcome pool patterns (.error (.abort .weightOverflow))

theorem outcome_make (pool : Account.Pool) (patterns : List Pattern) :
    Outcome pool patterns (make pool patterns) := by
  unfold make
  split
  · rename_i reason hflaw
    apply Outcome.refused
    · rw [← Pattern.tableFlaw?_eq_none_iff, hflaw]
      nofun
    · rw [validate, hflaw]
  · rename_i hflaw
    have hsound := Pattern.tableFlaw?_eq_none_iff.1 hflaw
    split
    · rename_i hfits
      exact .held hsound (fun hnone => sum?_eq_none_iff.1 hnone hfits) rfl rfl
    · rename_i hfits
      exact .overflow hsound (sum?_eq_none_iff.2 hfits)

/-- A sound table whose weights add up is held by a generator. -/
theorem exists_make (pool : Account.Pool) (hsound : Sound patterns)
    (hfits : total (weights patterns) < UInt32.size) :
    ∃ g, make pool patterns = .ok g ∧ g.pool = pool ∧ g.patterns = patterns := by
  have houtcome := outcome_make pool patterns
  generalize make pool patterns = result at houtcome ⊢
  cases houtcome with
  | refused hunsound _ => exact absurd hsound hunsound
  | held _ _ hpool hpatterns => exact ⟨_, rfl, hpool, hpatterns⟩
  | overflow _ hsum => exact absurd hfits (sum?_eq_none_iff.1 hsum)

/-- Every table is refused with an error, held by a generator, or ends in an abort. An error is that
of the check, and the check passes the sound tables and no other. A generator holds the pool and
the table as they are. There is neither a generator nor an error exactly for the sound tables whose
weights overflow when they are added up, that is, amount to `2 ^ 32` or more. -/
theorem make_aborts_on_overflow (pool : Account.Pool) (patterns : List Pattern) :
    (validate patterns = .ok () ↔ Sound patterns) ∧
    (∀ e, make pool patterns = .error (.error e) ↔
      validate patterns = .error e ∧ ∃ reason, e = .invalidPattern reason) ∧
    (∀ g, make pool patterns = .ok g ↔
      Sound patterns ∧ sum? (patterns.map Pattern.weight) ≠ none ∧ g.pool = pool ∧
        g.patterns = patterns) ∧
    (∀ cause, make pool patterns = .error (.abort cause) ↔
      Sound patterns ∧ sum? (patterns.map Pattern.weight) = none ∧ cause = .weightOverflow) ∧
    (sum? (patterns.map Pattern.weight) = none ↔ UInt32.size ≤ total (weights patterns)) := by
  have hvalidate : validate patterns = .ok () ↔ Sound patterns := Pattern.validate_eq_ok_iff
  refine ⟨hvalidate, ?_, ?_, ?_, sum?_eq_none_iff.trans Nat.not_lt⟩
  all_goals
    have houtcome := outcome_make pool patterns
    generalize make pool patterns = result at houtcome ⊢
  · intro e
    cases houtcome with
    | refused _ hflaw =>
        rw [hflaw]
        constructor
        · rintro ⟨⟩
          exact ⟨rfl, _, rfl⟩
        · rintro ⟨⟨⟩, -⟩
          rfl
    | held hsound _ _ _ => simp [hvalidate.2 hsound]
    | overflow hsound _ => simp [hvalidate.2 hsound]
  · intro g
    cases houtcome with
    | refused hunsound _ => simp [hunsound]
    | held hsound hsum hpool hpatterns =>
        constructor
        · rintro ⟨⟩
          exact ⟨hsound, hsum, hpool, hpatterns⟩
        · rintro ⟨-, -, hpool', hpatterns'⟩
          rw [eq_of_parts (hpool.trans hpool'.symm) (hpatterns.trans hpatterns'.symm)]
    | overflow _ hsum => simp [hsum]
  · intro cause
    cases houtcome with
    | refused hunsound _ => simp [hunsound]
    | held _ hsum _ _ => simp [hsum]
    | overflow hsound hsum => simp [hsound, hsum, eq_comm]

/-- Two patterns without a flaw, whose weights are no 32-bit number together. -/
theorem overflow_passes_check :
    validate [⟨.transfer, 4294967295, 1, 1⟩, ⟨.microTransfer, 1, 1, 1⟩] = .ok () ∧
      make .development [⟨.transfer, 4294967295, 1, 1⟩, ⟨.microTransfer, 1, 1, 1⟩] =
        .error (.abort .weightOverflow) :=
  ⟨rfl, rfl⟩

end Generator
end Transaction
end TxWorkload
