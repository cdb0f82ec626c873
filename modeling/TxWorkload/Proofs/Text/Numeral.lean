import Mathlib.Data.Nat.Digits.Defs
import TxWorkload.Proofs.Text.Ascii
import TxWorkload.Text.Decimal

/-!
# Numeral — numbers in positional notation

A numeral is one digit or more; it denotes the sum of its digits, each of them multiplied by the
power of the base that belongs to its place. Zeros in front are allowed. A reader that folds digits
from the left reads numerals and nothing else, whatever the base. Readers of numbers also let a plus
sign stand before a numeral.
-/

namespace TxWorkload
namespace Text

/-! ## Digits and numerals -/

/-- Whether a character is a digit of a base, in either case, with the given value. -/
def Digit (base : Nat) (c : Char) (value : Nat) : Prop :=
  value < base ∧ c.toLower = Nat.digitChar value

instance (base : Nat) (c : Char) (value : Nat) : Decidable (Digit base c value) :=
  inferInstanceAs (Decidable (_ ∧ _))

/-- Whether characters are a numeral of a base that denotes the given number. -/
def Numeral (base : Nat) (cs : List Char) (number : Nat) : Prop :=
  ∃ values, values ≠ [] ∧ List.Forall₂ (Digit base) cs values ∧
    number = Nat.ofDigits base values.reverse

/-- Whether characters are a numeral with an optional plus sign before it. -/
def PlusNumeral (base : Nat) (cs : List Char) (number : Nat) : Prop :=
  Numeral base cs number ∨ ∃ digits, cs = '+' :: digits ∧ Numeral base digits number

variable {base value number : Nat} {c : Char} {cs : List Char}

theorem toNat_of_digit (hbase : base ≤ 16) (h : Digit base c value) : c.toNat < 128 := by
  rcases h with ⟨hvalue, hlower⟩
  have hdigit : ∀ v < 16, (Nat.digitChar v).toNat < 128 := by decide
  apply toNat_of_toLower
  rw [hlower]
  exact hdigit value (Nat.lt_of_lt_of_le hvalue hbase)

theorem not_digit_plus (hbase : base ≤ 16) : ¬ Digit base '+' value := by
  rintro ⟨hvalue, hlower⟩
  have hnone : ∀ v < 16, Char.toLower '+' ≠ Nat.digitChar v := by decide
  exact hnone value (Nat.lt_of_lt_of_le hvalue hbase) hlower

theorem Numeral.ne_nil (h : Numeral base cs number) : cs ≠ [] := by
  rcases h with ⟨values, hne, hdigits, -⟩
  rintro rfl
  cases hdigits
  exact hne rfl

theorem Numeral.exists_digit (h : Numeral base cs number) (hc : c ∈ cs) :
    ∃ value, Digit base c value := by
  rcases h with ⟨values, -, hdigits, -⟩
  induction hdigits with
  | nil => cases hc
  | cons hdigit _ ih =>
      rcases List.mem_cons.1 hc with rfl | hc
      · exact ⟨_, hdigit⟩
      · exact ih hc

/-- A numeral has no plus sign in it. -/
theorem Numeral.not_mem_plus (hbase : base ≤ 16) (h : Numeral base cs number) : '+' ∉ cs := by
  intro hplus
  rcases h.exists_digit hplus with ⟨value, hdigit⟩
  exact not_digit_plus hbase hdigit

theorem not_plusNumeral_nil : ¬ PlusNumeral base [] number := by
  rintro (hnumeral | ⟨digits, hcs, -⟩)
  · exact hnumeral.ne_nil rfl
  · cases hcs

theorem plusNumeral_plus (hbase : base ≤ 16) :
    PlusNumeral base ('+' :: cs) number ↔ Numeral base cs number := by
  constructor
  · rintro (hnumeral | ⟨digits, hcs, hnumeral⟩)
    · exact absurd (List.mem_cons_self) (hnumeral.not_mem_plus hbase)
    · cases hcs
      exact hnumeral
  · intro hnumeral
    exact .inr ⟨cs, rfl, hnumeral⟩

theorem plusNumeral_of_ne (hc : c ≠ '+') :
    PlusNumeral base (c :: cs) number ↔ Numeral base (c :: cs) number := by
  constructor
  · rintro (hnumeral | ⟨digits, hcs, -⟩)
    · exact hnumeral
    · exact absurd (List.cons.inj hcs).1 hc
  · exact .inl

/-! ## Readers -/

/-- Whether a reader folds digits of a base onto a value from the left, and gives up at a character
that is no digit. -/
structure Folds (base : Nat) (read? : Nat → List Char → Option Nat) : Prop where
  nil : ∀ value, read? value [] = some value
  cons : ∀ value c cs number, read? value (c :: cs) = some number ↔
    ∃ d, Digit base c d ∧ read? (value * base + d) cs = some number

variable {read? : Nat → List Char → Option Nat}

/-- The digits that are read are worth what they denote, and what stands before them counts once
more the base for each of them. -/
theorem Folds.eq_some_iff (h : Folds base read?) :
    read? value cs = some number ↔
      ∃ values, List.Forall₂ (Digit base) cs values ∧
        number = value * base ^ values.length + Nat.ofDigits base values.reverse := by
  -- What has been read so far changes from digit to digit, so it is kept arbitrary.
  induction cs generalizing value with
  | nil =>
      rw [h.nil]
      simp [eq_comm]
  | cons c cs ih =>
      have hplace : ∀ d (values : List Nat),
          (value * base + d) * base ^ values.length + Nat.ofDigits base values.reverse =
            value * base ^ (d :: values).length + Nat.ofDigits base (d :: values).reverse := by
        intro d values
        rw [Nat.ofDigits_reverse_cons, List.length_cons]
        ring
      rw [h.cons]
      simp only [ih]
      constructor
      · rintro ⟨d, hd, values, hvalues, rfl⟩
        exact ⟨d :: values, .cons hd hvalues, hplace d values⟩
      · rintro ⟨_, hdigits, hnumber⟩
        cases hdigits with
        | @cons _ d _ values hd hvalues =>
            exact ⟨d, hd, values, hvalues, hnumber.trans (hplace d values).symm⟩

/-- What is read with nothing before it is a numeral, unless it is empty. -/
theorem Folds.numeral_iff (h : Folds base read?) :
    read? 0 (c :: cs) = some number ↔ Numeral base (c :: cs) number := by
  rw [h.eq_some_iff]
  constructor
  · rintro ⟨values, hdigits, hnumber⟩
    refine ⟨values, ?_, hdigits, by simpa using hnumber⟩
    rintro rfl
    cases hdigits
  · rintro ⟨values, -, hdigits, hnumber⟩
    exact ⟨values, hdigits, by simpa using hnumber⟩

/-! ## Decimal numerals -/

theorem decimalDigit?_eq_some_iff : decimalDigit? c = some value ↔ Digit 10 c value := by
  -- Each side makes the character ASCII, and there the two are compared one by one.
  have hascii : c.toNat < 128 → ∀ v < 10, decimalDigit? c = some v ↔ Digit 10 c v :=
    forall_ascii (P := fun c => ∀ v < 10, decimalDigit? c = some v ↔ Digit 10 c v)
      (by decide +kernel)
  constructor
  · intro h
    have hread := h
    unfold decimalDigit? at h
    split at h
    · rename_i hrange
      have hle : c.toNat ≤ 57 := hrange.2
      have hvalue : c.toNat - 48 = value := Option.some.inj h
      exact (hascii (by omega) value (by omega)).1 hread
    · cases h
  · intro h
    exact (hascii (toNat_of_digit (by decide) h) value h.1).2 h

theorem folds_decimalDigits? : Folds 10 decimalDigits? where
  nil _ := rfl
  cons value c cs number := by
    simp only [decimalDigits?, ← decimalDigit?_eq_some_iff]
    cases decimalDigit? c <;> simp

theorem unsignedNumeral?_eq_some_iff :
    unsignedNumeral? cs = some number ↔ Numeral 10 cs number := by
  cases cs with
  | nil => exact iff_of_false nofun fun h => h.ne_nil rfl
  | cons c cs => exact folds_decimalDigits?.numeral_iff

theorem numeral?_eq_some_iff : numeral? cs = some number ↔ PlusNumeral 10 cs number := by
  unfold numeral?
  split
  · rw [unsignedNumeral?_eq_some_iff, plusNumeral_plus (by decide)]
  · rename_i hplus
    rw [unsignedNumeral?_eq_some_iff]
    cases cs with
    | nil => exact iff_of_false (fun h => h.ne_nil rfl) not_plusNumeral_nil
    | cons c cs =>
        refine (plusNumeral_of_ne ?_).symm
        rintro rfl
        exact hplus cs rfl

/-- A number is taken as a word exactly if the word denotes it; it is refused if no word does. -/
theorem fit_eq_some_iff {n : Nat} {word : UInt64} :
    (if n < UInt64.size then some (UInt64.ofNat n) else none) = some word ↔ n = word.toNat := by
  split
  · rename_i hn
    rw [Option.some_inj, ← UInt64.toNat_inj, UInt64.toNat_ofNat_of_lt' hn]
  · rename_i hn
    refine iff_of_false nofun ?_
    rintro rfl
    exact hn word.toNat_lt_size

/-- What is read as a word is its numeral, with or without a plus sign. -/
theorem word64?_eq_some_iff {word : UInt64} :
    word64? cs = some word ↔ PlusNumeral 10 cs word.toNat := by
  rw [← numeral?_eq_some_iff, word64?]
  cases numeral? cs with
  | none => simp
  | some n => rw [Option.some_inj, ← fit_eq_some_iff]

/-! ## Written numerals -/

theorem digit_digitChar (hbase : base ≤ 16) (h : value < base) :
    Digit base (Nat.digitChar value) value := by
  have hlower : ∀ v < 16, (Nat.digitChar v).toLower = Nat.digitChar v := by decide
  exact ⟨h, hlower value (Nat.lt_of_lt_of_le h hbase)⟩

/-- Decimal digits have one form only. -/
theorem eq_digitChar (h : Digit 10 c value) : c = Nat.digitChar value := by
  have hascii : ∀ v < 10, Digit 10 c v → c = Nat.digitChar v :=
    forall_ascii (P := fun c => ∀ v < 10, Digit 10 c v → c = Nat.digitChar v)
      (by decide +kernel) (toNat_of_digit (by decide) h)
  exact hascii value h.1 h

theorem numeral_singleton (h : Digit base c value) : Numeral base [c] value :=
  ⟨[value], List.cons_ne_nil _ _, .cons h .nil, Nat.ofDigits_singleton.symm⟩

/-- One more digit counts once, and all before it once more the base. -/
theorem Numeral.snoc (h : Numeral base cs number) (hc : Digit base c value) :
    Numeral base (cs ++ [c]) (number * base + value) := by
  rcases h with ⟨values, -, hdigits, rfl⟩
  refine ⟨values ++ [value], by simp, List.rel_append hdigits (.cons hc .nil), ?_⟩
  rw [List.reverse_append, List.reverse_singleton, List.singleton_append, Nat.ofDigits_cons]
  ring

/-- The written form of a number denotes it. -/
theorem numeral_toDigits (hone : 1 < base) (hbase : base ≤ 16) (n : Nat) :
    Numeral base (Nat.toDigits base n) n := by
  induction n using Nat.strongRecOn with
  | _ n ih =>
      rw [Nat.toDigits_eq_if hone]
      split
      · rename_i hlt
        exact numeral_singleton (digit_digitChar hbase hlt)
      · rename_i hge
        have hpos : 0 < n := by omega
        have hlast := digit_digitChar hbase (Nat.mod_lt n (by omega))
        have h := (ih (n / base) (Nat.div_lt_self hpos hone)).snoc hlast
        rwa [Nat.div_add_mod'] at h

/-- The decimal form of a number above zero does not begin with a zero. -/
theorem head?_toDigits {n : Nat} (hn : 0 < n) : (Nat.toDigits 10 n).head? ≠ some '0' := by
  induction n using Nat.strongRecOn with
  | _ n ih =>
      rw [Nat.toDigits_eq_if (by decide)]
      split
      · intro hzero
        exact Nat.ne_of_gt hn (Nat.digitChar_eq_zero.1 (Option.some.inj hzero))
      · rw [List.head?_append_of_ne_nil _ Nat.toDigits_ne_nil]
        exact ih (n / 10) (by omega) (by omega)

/-! ## Decimal numerals of one number -/

/-- A decimal numeral is written with the digits of its values. -/
theorem Numeral.exists_values (h : Numeral 10 cs number) :
    ∃ values, values ≠ [] ∧ (∀ v ∈ values, v < 10) ∧ cs = values.map Nat.digitChar ∧
      number = Nat.ofDigits 10 values.reverse := by
  rcases h with ⟨values, hne, hdigits, hnumber⟩
  refine ⟨values, hne, ?_, ?_, hnumber⟩
  · clear hne hnumber
    induction hdigits with
    | nil => simp
    | cons hdigit _ ih => exact List.forall_mem_cons.2 ⟨hdigit.1, ih⟩
  · clear hne hnumber
    induction hdigits with
    | nil => rfl
    | cons hdigit _ ih => rw [List.map_cons, ← eq_digitChar hdigit, ← ih]

/-- Numerals of one length that denote the same number are the same. -/
theorem Numeral.eq_of_length (h : Numeral 10 cs number) (h' : Numeral 10 cs' number)
    (hlength : cs.length = cs'.length) : cs = cs' := by
  rcases h.exists_values with ⟨values, -, hlt, rfl, hnumber⟩
  rcases h'.exists_values with ⟨values', -, hlt', rfl, hnumber'⟩
  have hreverse : values.reverse = values'.reverse := by
    refine Nat.ofDigits_inj_of_len_eq (b := 10) (by decide) ?_ ?_ ?_ (hnumber ▸ hnumber')
    · simpa using hlength
    · simpa using hlt
    · simpa using hlt'
  rw [List.reverse_injective hreverse]

/-- The digits of a numeral without zeros in front are those of its number. -/
theorem Numeral.exists_digits (h : Numeral 10 cs number) (hlead : cs.head? ≠ some '0') :
    cs = (Nat.digits 10 number).reverse.map Nat.digitChar ∧ 0 < number := by
  rcases h.exists_values with ⟨values, hne, hlt, rfl, rfl⟩
  have hdigits : Nat.digits 10 (Nat.ofDigits 10 values.reverse) = values.reverse := by
    refine Nat.digits_ofDigits 10 (by decide) _ (by simpa using hlt) fun hreverse hlast => ?_
    rw [List.getLast_reverse] at hlast
    cases values with
    | nil => exact hne rfl
    | cons v values =>
        have hv : v = 0 := hlast
        exact hlead (by rw [hv]; rfl)
  refine ⟨by rw [hdigits, List.reverse_reverse], Nat.pos_of_ne_zero fun hzero => hne ?_⟩
  rw [hzero, Nat.digits_zero] at hdigits
  exact List.reverse_eq_nil_iff.1 hdigits.symm

/-- Numerals without zeros in front that denote the same number are the same. -/
theorem Numeral.eq_of_head? (h : Numeral 10 cs number) (h' : Numeral 10 cs' number)
    (hlead : cs.head? ≠ some '0') (hlead' : cs'.head? ≠ some '0') : cs = cs' :=
  (h.exists_digits hlead).1.trans (h'.exists_digits hlead').1.symm

/-! ## Two digits -/

theorem toList_twoDigits {n : Nat} (h : n < 100) :
    (twoDigits n).toList = [Nat.digitChar (n / 10), Nat.digitChar (n % 10)] := by
  unfold twoDigits
  rw [Nat.toString_eq_repr]
  split
  · rename_i hlt
    rw [String.toList_append, Nat.toList_repr, Nat.toDigits_of_lt_base hlt,
      Nat.div_eq_of_lt hlt, Nat.mod_eq_of_lt hlt]
    rfl
  · rw [Nat.toList_repr, Nat.toDigits_of_base_le (by decide) (by omega),
      Nat.toDigits_of_lt_base (by omega)]
    rfl

theorem numeral_twoDigits {n : Nat} (h : n < 100) : Numeral 10 (twoDigits n).toList n := by
  have hfirst : Digit 10 _ (n / 10) := digit_digitChar (by decide) (by omega)
  have hlast : Digit 10 _ (n % 10) := digit_digitChar (by decide) (by omega)
  have hboth := (numeral_singleton hfirst).snoc hlast
  rw [Nat.div_add_mod'] at hboth
  rw [toList_twoDigits h]
  exact hboth

end Text
end TxWorkload
