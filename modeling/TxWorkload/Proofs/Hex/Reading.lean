import TxWorkload.Proofs.Hex.Digit
import TxWorkload.Proofs.Text.Numeral

/-!
# Reading — the texts that are read as a quantity

A quantity is a numeral of base sixteen behind an optional marker. The reader takes every such text
whose number fits 64 bits, and no other, but for one thing: it also lets a plus sign stand between
the marker and the digits.
-/

namespace TxWorkload
namespace Hex

open Text (Digit Numeral PlusNumeral Folds)

variable {c : Char} {cs : List Char} {number value : Nat}

/-! ## Digits -/

theorem digit?_eq_some_iff : digit? c = some value ↔ Digit 16 c value := by
  have hascii : c.toNat < 128 → ∀ v < 16, digit? c = some v ↔ Digit 16 c v :=
    Text.forall_ascii (P := fun c => ∀ v < 16, digit? c = some v ↔ Digit 16 c v)
      (by decide +kernel)
  constructor
  · intro h
    have hdigit : IsDigit c := isSome_digit?_iff.1 (by rw [h]; rfl)
    rcases exists_value hdigit with ⟨d, hd, hread, -⟩
    cases h.symm.trans hread
    exact (hascii (toNat_of_isDigit hdigit) value hd).1 h
  · intro h
    exact (hascii (Text.toNat_of_digit (Nat.le_refl 16) h) value h.1).2 h

theorem folds_digits? : Folds 16 digits? where
  nil _ := rfl
  cons value c cs number := by
    simp only [digits?, ← digit?_eq_some_iff]
    cases digit? c <;> simp

theorem unsigned?_eq_some_iff : unsigned? cs = some number ↔ PlusNumeral 16 cs number := by
  unfold unsigned?
  -- Nothing at all, a plus sign alone, something behind a plus sign, and something without one.
  split
  · exact iff_of_false nofun Text.not_plusNumeral_nil
  · rw [Text.plusNumeral_plus (Nat.le_refl 16)]
    exact iff_of_false nofun fun h => h.ne_nil rfl
  · rw [Text.plusNumeral_plus (Nat.le_refl 16)]
    exact folds_digits?.numeral_iff
  · rename_i c cs hsign hplus
    have hne : c ≠ '+' := by
      rintro rfl
      cases cs with
      | nil => exact hsign rfl rfl
      | cons c cs => exact hplus c cs rfl rfl
    rw [Text.plusNumeral_of_ne hne]
    exact folds_digits?.numeral_iff

/-! ## Markers -/

/-- Whether characters are the marker of a quantity, or none. -/
def IsMarker (marker : List Char) : Prop :=
  marker = [] ∨ marker = ['0', 'x'] ∨ marker = ['0', 'X']

/-- Whether characters are a number in some form, behind an optional marker. -/
def Marked (form : List Char → Nat → Prop) (cs : List Char) (number : Nat) : Prop :=
  ∃ marker rest, IsMarker marker ∧ cs = marker ++ rest ∧ form rest number

theorem exists_marker (cs : List Char) :
    ∃ marker, IsMarker marker ∧ cs = marker ++ withoutMarker cs := by
  unfold withoutMarker
  split
  · exact ⟨['0', 'x'], .inr (.inl rfl), rfl⟩
  · exact ⟨['0', 'X'], .inr (.inr rfl), rfl⟩
  · exact ⟨[], .inl rfl, rfl⟩

theorem not_mem_of_plusNumeral (hc : digit? c = none) (hplus : c ≠ '+')
    (h : PlusNumeral 16 cs number) : c ∉ cs := by
  have hdigits : ∀ digits, Numeral 16 digits number → c ∉ digits := by
    intro digits hnumeral hmem
    rcases hnumeral.exists_digit hmem with ⟨value, hdigit⟩
    cases hc.symm.trans (digit?_eq_some_iff.2 hdigit)
  rcases h with hnumeral | ⟨digits, rfl, hnumeral⟩
  · exact hdigits cs hnumeral
  · rw [List.mem_cons]
    rintro (rfl | hmem)
    · exact hplus rfl
    · exact hdigits digits hnumeral hmem

/-- There is no marker at the front of a number. -/
theorem withoutMarker_of_plusNumeral (h : PlusNumeral 16 cs number) : withoutMarker cs = cs := by
  unfold withoutMarker
  -- The letter of a marker is neither a digit nor a sign.
  split
  · exact absurd (by simp) (not_mem_of_plusNumeral (c := 'x') (by decide) (by decide) h)
  · exact absurd (by simp) (not_mem_of_plusNumeral (c := 'X') (by decide) (by decide) h)
  · rfl

/-! ## Quantities -/

theorem unsigned?_withoutMarker_iff :
    unsigned? (withoutMarker cs) = some number ↔ Marked (PlusNumeral 16) cs number := by
  rw [unsigned?_eq_some_iff]
  constructor
  · intro h
    rcases exists_marker cs with ⟨marker, hmarker, hcs⟩
    exact ⟨marker, withoutMarker cs, hmarker, hcs, h⟩
  · rintro ⟨marker, rest, rfl | rfl | rfl, rfl, h⟩
    · rwa [withoutMarker_of_plusNumeral h]
    · exact h
    · exact h

/-- The texts that are read as a quantity are the numbers of base sixteen behind an optional marker,
with or without a plus sign. -/
theorem quantity?_eq_some_iff {s : String} {word : UInt64} :
    quantity? s = some word ↔ Marked (PlusNumeral 16) s.toList word.toNat := by
  rw [← unsigned?_withoutMarker_iff, quantity?, quantityOfList?]
  cases unsigned? (withoutMarker s.toList) with
  | none => simp
  | some n => rw [Option.some_inj, ← Text.fit_eq_some_iff]

/-- A text is refused exactly if it is no such number, or the number takes more than 64 bits. -/
theorem quantity?_eq_none_iff {s : String} :
    quantity? s = none ↔ ∀ n < 2 ^ 64, ¬ Marked (PlusNumeral 16) s.toList n := by
  constructor
  · intro h n hn hmarked
    have hword : (UInt64.ofNat n).toNat = n := UInt64.toNat_ofNat_of_lt' hn
    rw [← hword, ← quantity?_eq_some_iff, h] at hmarked
    cases hmarked
  · intro h
    rw [Option.eq_none_iff_forall_ne_some]
    intro word hword
    exact h word.toNat word.toNat_lt (quantity?_eq_some_iff.1 hword)

/-- Without a sign, there is no plus sign in a quantity. -/
theorem Marked.not_mem_plus (h : Marked (Numeral 16) cs number) : '+' ∉ cs := by
  rcases h with ⟨marker, rest, hmarker, rfl, hnumeral⟩
  rw [List.mem_append]
  rintro (hplus | hplus)
  · rcases hmarker with rfl | rfl | rfl <;> revert hplus <;> decide
  · exact hnumeral.not_mem_plus (Nat.le_refl 16) hplus

end Hex
end TxWorkload
