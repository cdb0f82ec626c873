import TxWorkload.Proofs.Random.Sampling
import TxWorkload.Random.Weighted

/-!
# Yield — what a draw can give

What is accepted from a supply is accepted word by word, so the first value is the first of the
values that all words are accepted for. A draw yields a property if every value that it gives from
any supply has it. Nothing is said of supplies on which it runs dry or gives up.
-/

namespace TxWorkload
namespace Random

namespace Draw

variable {α β : Type}

/-! ## Values -/

section

variable {accept : UInt64 → Option β} {supply rest : Supply} {b : β}

theorem bind_eq_value_iff {d : Draw α} {next : α → Draw β} :
    (d >>= next) supply = .value b rest ↔
      ∃ a left, d supply = .value a left ∧ next a left = .value b rest := by
  simp only [Bind.bind, andThen]
  cases d supply with
  | value a left =>
      constructor
      · intro h
        exact ⟨a, left, rfl, h⟩
      · rintro ⟨_, _, ⟨⟩, h⟩
        exact h
  | dry => simp
  | abort cause => simp

/-- The first accepted word gives the value, and the words behind it are left. -/
theorem filterMap_of_first (h : first accept supply = .value b rest) :
    supply.filterMap accept = b :: rest.filterMap accept := by
  induction supply with
  | nil => cases h
  | cons word supply ih =>
      cases hword : accept word with
      | some b' =>
          simp only [first, hword] at h
          cases h
          exact List.filterMap_cons_some hword
      | none =>
          simp only [first, hword] at h
          rw [List.filterMap_cons_none hword, ih h]

theorem exists_first_iff :
    (∃ rest, first accept supply = .value b rest) ↔ (supply.filterMap accept).head? = some b := by
  induction supply with
  | nil => simp [first]
  | cons word supply ih => cases hword : accept word <;> simp [first, hword, ih]

end

/-! ## Properties of all values -/

/-- Every value of a draw has a property. -/
def Yields (d : Draw α) (P : α → Prop) : Prop :=
  ∀ supply a rest, d supply = .value a rest → P a

variable {d : Draw α} {P : α → Prop} {Q : β → Prop}

theorem yields_pure {a : α} (h : P a) : (pure a : Draw α).Yields P := by
  intro supply b rest hb
  cases hb
  exact h

theorem yields_abort (cause : Abort) : (abort cause : Draw α).Yields P := by
  intro supply a rest h
  cases h

theorem yields_trivial (d : Draw α) : d.Yields fun _ => True :=
  fun _ _ _ _ => trivial

theorem Yields.bind {next : α → Draw β} (hd : d.Yields P) (hnext : ∀ a, P a → (next a).Yields Q) :
    (d >>= next).Yields Q := by
  intro supply b rest h
  rcases bind_eq_value_iff.1 h with ⟨a, left, ha, hb⟩
  exact hnext a (hd supply a left ha) left b rest hb

/-- What words are accepted for is what is given. -/
theorem yields_first {accept : UInt64 → Option α} (h : ∀ word a, accept word = some a → P a) :
    (first accept).Yields P := by
  intro supply a rest hfirst
  have hmem : a ∈ supply.filterMap accept := by
    rw [filterMap_of_first hfirst]
    exact .head _
  rcases List.mem_filterMap.1 hmem with ⟨word, -, hword⟩
  exact h word a hword

theorem yields_bytes (n : Nat) : (bytes n).Yields fun bytes => bytes.length ≤ n :=
  (yields_trivial (words ((n + 7) / 8))).bind fun _ _ => yields_pure (List.length_take_le _ _)

end Draw

open Draw (Yields yields_abort yields_first)

/-- A number from a range lies in it. -/
theorem yields_pick (least most : UInt64) :
    (pick least most).Yields fun n => least ≤ n ∧ n ≤ most := by
  by_cases h : least ≤ most
  · rw [pick_eq_first h]
    apply yields_first
    intro word value hvalue
    rcases toNat_of_sampled h hvalue with ⟨hsum, hmost⟩
    refine ⟨?_, UInt64.le_iff_toNat_le.2 hmost⟩
    rw [UInt64.le_iff_toNat_le, hsum]
    exact Nat.le_add_right _ _
  · rw [pick, if_neg h]
    exact yields_abort _

end Random
end TxWorkload
