import TxWorkload.Random.Supply

/-!
# Agreement — two draws on the same words

Two draws agree if from every supply they do the same: both give values that are related and leave
the same words, both run dry, or both give up for the same cause. Draws that agree up to equality
are the same draw.
-/

namespace TxWorkload
namespace Random

variable {α β γ δ : Type}

/-- The same outcome, up to a relation between the values. -/
inductive Drawn.Agree (R : α → β → Prop) : Drawn α → Drawn β → Prop
  | value {a : α} {b : β} (h : R a b) (rest : Supply) : Agree R (.value a rest) (.value b rest)
  | dry : Agree R .dry .dry
  | abort (cause : Abort) : Agree R (.abort cause) (.abort cause)

namespace Draw

/-- The same outcome from every supply, up to a relation between the values. -/
def Agree (R : α → β → Prop) (d : Draw α) (e : Draw β) : Prop :=
  ∀ supply, Drawn.Agree R (d supply) (e supply)

variable {R : α → β → Prop} {T : γ → δ → Prop} {d : Draw α} {e : Draw β}

theorem agree_refl (d : Draw α) : d.Agree (· = ·) d := by
  intro supply
  cases d supply with
  | value a rest => exact .value rfl rest
  | dry => exact .dry
  | abort cause => exact .abort cause

theorem Agree.eq {d e : Draw α} (h : d.Agree (· = ·) e) : d = e := by
  funext supply
  have hsupply := h supply
  generalize d supply = x, e supply = y at hsupply
  cases hsupply with
  | value h _ => rw [h]
  | dry => rfl
  | abort _ => rfl

theorem agree_pure {a : α} {b : β} (h : R a b) : (pure a : Draw α).Agree R (pure b) :=
  fun supply => .value h supply

theorem Agree.bind {next : α → Draw γ} {next' : β → Draw δ} (h : d.Agree R e)
    (hnext : ∀ a b, R a b → (next a).Agree T (next' b)) : (d >>= next).Agree T (e >>= next') := by
  intro supply
  have hd := h supply
  simp only [Bind.bind, andThen]
  generalize d supply = x, e supply = y at hd ⊢
  cases hd with
  | value hab rest => exact hnext _ _ hab rest
  | dry => exact .dry
  | abort cause => exact .abort cause

/-- Draws that accept the same words, for values that are related. -/
theorem agree_first {accept : UInt64 → Option α} {accept' : UInt64 → Option β}
    (h : ∀ word, Option.Rel R (accept word) (accept' word)) :
    (first accept).Agree R (first accept') := by
  intro supply
  induction supply with
  | nil => exact .dry
  | cons word rest ih =>
      have hword := h word
      simp only [first]
      generalize accept word = x, accept' word = y at hword
      cases hword with
      | some hab => exact .value hab rest
      | none => exact ih

end Draw
end Random
end TxWorkload
