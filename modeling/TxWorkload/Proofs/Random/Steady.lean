import TxWorkload.Proofs.Binary64.Order
import TxWorkload.Workload

/-!
# Steady — draws that depend on nothing but the words they take

A steady draw never gives up. It takes some words off the front of the supply, or runs dry; the
words behind those it takes do not matter. So a supply may stand for an endless stream: once a
beginning of the stream is long enough for a draw, every longer one gives the same value.

All draws of the program are steady: the ranges, the weights and the probability they are given
are fit to be drawn from, because a generator and accepted settings carry proofs of it.
-/

namespace TxWorkload
namespace Random
namespace Draw

variable {α β : Type}

/-- Whether a draw always runs dry or gives a value that its first words alone decide. -/
def Steady (d : Draw α) : Prop :=
  ∀ s, d s = .dry ∨ ∃ u a, u <+: s ∧ ∀ t, d (u ++ t) = .value a t

/-! ## Building blocks -/

theorem steady_pure (a : α) : (pure a : Draw α).Steady :=
  fun _ => .inr ⟨[], a, List.nil_prefix, fun _ => rfl⟩

theorem Steady.bind {d : Draw α} {next : α → Draw β} (hd : d.Steady)
    (hnext : ∀ a, (next a).Steady) : (d >>= next).Steady := by
  intro s
  rcases hd s with hdry | ⟨u, a, ⟨s', rfl⟩, hu⟩
  · exact .inl (by simp only [Bind.bind, andThen, hdry])
  · rcases hnext a s' with hdry | ⟨u', b, hu', hnext'⟩
    · exact .inl (by simp only [Bind.bind, andThen, hu, hdry])
    · refine .inr ⟨u ++ u', b, (List.prefix_append_right_inj u).2 hu', fun t => ?_⟩
      simp only [Bind.bind, andThen, List.append_assoc, hu, hnext']

theorem steady_word : word.Steady := by
  intro s
  cases s with
  | nil => exact .inl rfl
  | cons w s => exact .inr ⟨[w], w, ⟨s, rfl⟩, fun _ => rfl⟩

theorem steady_first (accept : UInt64 → Option β) : (first accept).Steady := by
  intro s
  induction s with
  | nil => exact .inl rfl
  | cons w s ih =>
      cases hw : accept w with
      | some b => exact .inr ⟨[w], b, ⟨s, rfl⟩, fun t => by simp [first, hw]⟩
      | none =>
          rcases ih with hdry | ⟨u, b, ⟨t, rfl⟩, hu⟩
          · exact .inl (by simp [first, hw, hdry])
          · exact .inr ⟨w :: u, b, ⟨t, rfl⟩, fun t => by simp [first, hw, hu]⟩

theorem steady_words (n : Nat) : (words n).Steady := by
  induction n with
  | zero => exact steady_pure []
  | succ n ih => exact steady_word.bind fun w => ih.bind fun ws => steady_pure _

theorem steady_bytes (n : Nat) : (bytes n).Steady :=
  (steady_words _).bind fun _ => steady_pure _

/-- What a steady draw has given came from a beginning of the supply. -/
theorem Steady.of_value {d : Draw α} (hd : d.Steady) {s r : Supply} {a : α}
    (h : d s = .value a r) : ∃ u, s = u ++ r ∧ ∀ t, d (u ++ t) = .value a t := by
  rcases hd s with hdry | ⟨u, b, ⟨t, rfl⟩, hu⟩
  · rw [hdry] at h
    cases h
  · rw [hu t] at h
    cases h
    exact ⟨u, rfl, hu⟩

theorem Steady.ne_abort {d : Draw α} (hd : d.Steady) (s : Supply) (cause : Abort) :
    d s ≠ .abort cause := by
  intro h
  rcases hd s with hdry | ⟨u, b, ⟨t, rfl⟩, hu⟩
  · rw [hdry] at h
    cases h
  · rw [hu t] at h
    cases h

end Draw

open Draw (Steady steady_pure steady_word steady_first steady_bytes)

/-! ## Ranges and weights -/

theorem steady_index {size : Nat} (h : size ≠ 0) : (index size).Steady := by
  rw [index, if_neg h]
  exact steady_first _

theorem steady_pick {least most : UInt64} (h : least ≤ most) : (pick least most).Steady := by
  rw [pick, if_pos h]
  exact (steady_index (Nat.succ_ne_zero _)).bind fun _ => steady_pure _

theorem steady_weighted {weights : List Nat} (h : weights ≠ []) : (weighted weights h).Steady :=
  (steady_first _).bind fun _ => steady_pure _

/-! ## Chances and deviations -/

theorem steady_chance {p : Float} (hzero : 0.0 ≤ p) (hone : p ≤ 1.0) : (chance p).Steady := by
  unfold chance
  split
  · exact steady_pure true
  · rename_i hne
    have hlt : p < 1.0 := (Binary64.beq_or_lt_of_le hone).resolve_left hne
    rw [if_pos (by simp [hzero, hlt])]
    exact steady_word.bind fun _ => steady_pure _

theorem steady_deviation : deviation.Steady :=
  steady_word.bind fun _ => steady_pure _

end Random

/-! ## Transactions -/

namespace Transaction

open TxWorkload.Random (steady_index steady_pick steady_weighted)
open TxWorkload.Random.Draw (steady_pure steady_first steady_bytes)

/-- A valid table has no pattern with a flaw. -/
theorem Pattern.flaw?_eq_none {patterns : List Pattern} (h : tableFlaw? patterns = none)
    {p : Pattern} (hp : p ∈ patterns) : p.flaw? = none := by
  unfold tableFlaw? at h
  split at h
  · cases h
  · exact List.findSome?_eq_none_iff.1 h p hp

theorem Pattern.sound_of_flaw? {p : Pattern} (h : p.flaw? = none) :
    p.weight ≠ 0 ∧ p.least ≤ p.most := by
  unfold flaw? at h
  split at h
  · cases h
  · rename_i hweight
    split at h
    · cases h
    · rename_i hlt
      exact ⟨hweight, UInt64.not_lt.1 hlt⟩

theorem Pattern.least_le_most {patterns : List Pattern} (h : tableFlaw? patterns = none)
    {p : Pattern} (hp : p ∈ patterns) : p.least ≤ p.most :=
  (sound_of_flaw? (flaw?_eq_none h hp)).2

/-- The weights of a valid table do not add up to zero. -/
theorem Pattern.total_pos {patterns : List Pattern} (h : tableFlaw? patterns = none) :
    0 < Random.total (weights patterns) := by
  cases patterns with
  | nil => cases h
  | cons p rest =>
      have hweight : p.weight ≠ 0 := (sound_of_flaw? (flaw?_eq_none h (.head _))).1
      have hpos : 0 < p.weight.toNat := by
        refine Nat.pos_of_ne_zero ?_
        intro hzero
        exact hweight (UInt32.toNat_inj.1 hzero)
      exact Nat.add_pos_left hpos _

namespace Generator

variable (g : Generator)

theorem steady_choose : g.choose.Steady :=
  (steady_weighted _).bind fun _ => steady_pure _

theorem steady_pair (p : Account.Pool) : p.pair.Steady :=
  (steady_first _).bind fun _ => (steady_first _).bind fun _ => steady_pure _

theorem steady_gasAndPayload (kind : Kind) : (gasAndPayload kind).Steady := by
  unfold gasAndPayload
  split
  · exact (steady_pick (by decide)).bind fun _ =>
      (steady_index (by decide)).bind fun _ => (steady_bytes _).bind fun _ => steady_pure _
  · exact steady_pure _

theorem steady_generate : g.generate.Steady := by
  refine g.steady_choose.bind fun i => (steady_pair g.pool).bind fun (sender, recipient) => ?_
  have hrange : g.patterns[i].least ≤ g.patterns[i].most :=
    Pattern.least_le_most g.valid (List.getElem_mem _)
  exact (steady_pick hrange).bind fun _ => (steady_pick (by decide)).bind fun _ =>
    (steady_gasAndPayload _).bind fun _ => steady_pure _

end Generator
end Transaction

/-! ## Bursts and pauses -/

open TxWorkload.Random.Draw (steady_pure)

/-- Accepted settings give bursts a range of sizes and a probability. -/
theorem Config.bursts_of_accepted {c : Config} (h : c.flaw? = none) :
    c.bursts.least ≤ c.bursts.most ∧ 0.0 ≤ c.bursts.probability ∧ c.bursts.probability ≤ 1.0 := by
  unfold flaw? at h
  split at h
  · cases h
  split at h
  · cases h
  split at h
  · cases h
  split at h
  · cases h
  split at h
  · cases h
  rename_i hrange
  split at h
  · cases h
  rename_i hprobability
  have hprobability : 0.0 ≤ c.bursts.probability ∧ c.bursts.probability ≤ 1.0 := by
    simpa using hprobability
  exact ⟨UInt64.not_lt.1 hrange, hprobability⟩

namespace Activity

theorem Burst.clamped_eq {p : Float} (hzero : 0.0 ≤ p) (hone : p ≤ 1.0) : clamped p = p := by
  simp only [clamped, if_neg (Binary64.not_lt_of_le hzero), if_neg (Binary64.not_lt_of_le hone)]

theorem Burst.steady_roll {b : Config.Bursts} (hrange : b.least ≤ b.most)
    (hzero : 0.0 ≤ b.probability) (hone : b.probability ≤ 1.0) : (roll b).Steady := by
  unfold roll
  rw [clamped_eq hzero hone]
  refine (Random.steady_chance hzero hone).bind ?_
  intro happens
  cases happens with
  | true => exact (Random.steady_pick hrange).bind fun _ => steady_pure _
  | false => exact steady_pure none

theorem Plan.steady_pause (base : Duration) : (pause base).Steady :=
  Random.steady_deviation.bind fun _ => steady_pure _

/-- Whether the dice for bursts can be cast. -/
def Plan.Fit (p : Plan) : Prop :=
  ∀ b, p.bursts = some b → (Burst.roll b).Steady

end Activity

/-- The bursts of an accepted workload can be rolled. -/
theorem Workload.fit_plan (w : Workload) : w.plan.Fit := by
  intro b hb
  rcases Config.bursts_of_accepted w.accepted with ⟨hrange, hzero, hone⟩
  have hmode : (if w.config.burstMode then some w.config.bursts else none) = some b := hb
  split at hmode
  · cases hmode
    exact Activity.Burst.steady_roll hrange hzero hone
  · cases hmode

end TxWorkload
