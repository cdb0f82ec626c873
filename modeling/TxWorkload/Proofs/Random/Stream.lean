import TxWorkload.Proofs.Random.Steady

/-!
# Stream — endless words

A supply is finite, but it stands for the streams that it begins. A stream serves a draw if the draw
ends on it, wherever it begins to take words. On such a stream a steady draw ends as soon as enough
words are there, and what comes behind them does not matter.
-/

namespace TxWorkload
namespace Random

/-- Some words of a stream. -/
def excerpt (σ : Nat → UInt64) (start : Nat) : Nat → Supply
  | 0 => []
  | n + 1 => σ start :: excerpt σ (start + 1) n

variable {σ : Nat → UInt64}

theorem excerpt_add (start m n : Nat) :
    excerpt σ start (m + n) = excerpt σ start m ++ excerpt σ (start + m) n := by
  induction m generalizing start with
  | zero => rw [Nat.zero_add]; rfl
  | succ m ih =>
      rw [Nat.succ_add, excerpt, ih, excerpt, Nat.add_assoc, Nat.add_comm 1 m]
      rfl

/-- What is left of an excerpt is an excerpt that ends where it ended. -/
theorem exists_excerpt {start n : Nat} {u r : Supply} (h : excerpt σ start n = u ++ r) :
    ∃ start' n', start' + n' = start + n ∧ r = excerpt σ start' n' := by
  induction u generalizing start n with
  | nil => exact ⟨start, n, rfl, h.symm⟩
  | cons word u ih =>
      cases n with
      | zero => cases h
      | succ n =>
          rcases ih (List.cons.inj h).2 with ⟨start', n', hend, hr⟩
          exact ⟨start', n', hend.trans (Nat.add_right_comm start 1 n), hr⟩

namespace Draw

/-- Whether a draw is steady and ends on a stream, wherever it begins. -/
structure Served (σ : Nat → UInt64) {α : Type} (d : Draw α) : Prop where
  steady : d.Steady
  ends : ∀ start, ∃ n, d (excerpt σ start n) ≠ .dry

namespace Served

variable {α : Type} {d : Draw α}

/-- What a stream serves ends if enough words of the stream follow those that are left. -/
theorem exists_enough (hd : d.Served σ) (start n : Nat) :
    ∃ m, ∀ more, d (excerpt σ start n ++ (excerpt σ (start + n) m ++ more)) ≠ .dry := by
  rcases hd.ends start with ⟨m, hm⟩
  refine ⟨m, ?_⟩
  intro more
  rcases (hd.steady (excerpt σ start m)).resolve_left hm with ⟨u, a, ⟨v, hv⟩, hu⟩
  -- The words that are left and those that follow begin with an excerpt on which the draw ends.
  have hwords : excerpt σ start n ++ (excerpt σ (start + n) m ++ more) =
      u ++ (v ++ (excerpt σ (start + m) n ++ more)) := by
    calc excerpt σ start n ++ (excerpt σ (start + n) m ++ more)
        = excerpt σ start (n + m) ++ more := by rw [excerpt_add, List.append_assoc]
      _ = excerpt σ start (m + n) ++ more := by rw [Nat.add_comm]
      _ = u ++ v ++ excerpt σ (start + m) n ++ more := by rw [excerpt_add, hv]
      _ = u ++ (v ++ (excerpt σ (start + m) n ++ more)) := by simp only [List.append_assoc]
  rw [hwords, hu]
  intro hdry
  cases hdry

end Served
end Draw
end Random
end TxWorkload
