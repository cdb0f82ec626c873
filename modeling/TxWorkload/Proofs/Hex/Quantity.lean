import TxWorkload.Hex.Quantity

/-!
# Quantity — numerals that read back

A numeral is read digit by digit, the most significant one first, and written by division. The two
agree on lower case numerals without leading zeros. So a quantity reads back as its number, and a
canonical text is the written form of the number read from it.
-/

namespace TxWorkload
namespace Hex

/-! ## Digits -/

/-- Whether a character is a hexadecimal digit in lower case. -/
def IsLower (c : Char) : Prop :=
  '0' ≤ c ∧ c ≤ '9' ∨ 'a' ≤ c ∧ c ≤ 'f'

instance (c : Char) : Decidable (IsLower c) :=
  inferInstanceAs (Decidable (_ ∨ _))

theorem digit?_digit {d : Nat} (h : d < 16) : digit? (digit d) = some d := by
  revert d
  decide

theorem isLower_digit {d : Nat} (h : d < 16) : IsLower (digit d) := by
  revert d
  decide

/-- A digit in lower case is the written form of its value. -/
theorem exists_digit {c : Char} (h : IsLower c) : ∃ d < 16, c = digit d := by
  have hof : ∀ first count base, (∀ i < count, Char.ofNat (first + i) = digit (base + i)) →
      first ≤ c.toNat → c.toNat < first + count → ∃ i < count, c = digit (base + i) := by
    intro first count base hdigits hle hlt
    refine ⟨c.toNat - first, by omega, ?_⟩
    rw [← hdigits _ (by omega), Nat.add_sub_cancel' hle, Char.ofNat_toNat]
  rcases h with ⟨hle, hlt⟩ | ⟨hle, hlt⟩
  · rcases hof 48 10 0 (by decide) hle (Nat.lt_succ_of_le hlt) with ⟨i, hi, rfl⟩
    exact ⟨0 + i, by omega, rfl⟩
  · rcases hof 97 6 10 (by decide) hle (Nat.lt_succ_of_le hlt) with ⟨i, hi, rfl⟩
    exact ⟨10 + i, by omega, rfl⟩

/-! ## Numerals -/

theorem digits?_append (value : Nat) (cs more : List Char) :
    digits? value (cs ++ more) = (digits? value cs).bind fun value => digits? value more := by
  induction cs generalizing value with
  | nil => rfl
  | cons c cs ih =>
      simp only [List.cons_append, digits?]
      cases digit? c with
      | none => rfl
      | some d => exact ih _

/-- The last digit counts once, and all before it sixteen times. -/
theorem digits?_snoc {cs : List Char} {value d : Nat} (h : digits? 0 cs = some value)
    (hd : d < 16) : digits? 0 (cs ++ [digit d]) = some (value * 16 + d) := by
  rw [digits?_append, h, Option.bind_some]
  simp only [digits?, digit?_digit hd]

theorem numeral_digit {d : Nat} (hd : d < 16) : numeral d = [digit d] :=
  Nat.toDigits_of_lt_base hd

theorem numeral_snoc {n d : Nat} (hn : 0 < n) (hd : d < 16) :
    numeral (n * 16 + d) = numeral n ++ [digit d] := by
  rw [Nat.mul_comm, ← numeral_digit hd]
  exact (Nat.toDigits_append_toDigits (by decide) hn hd).symm

/-- Numbers are built from their digits, the last one at a time. -/
theorem digit_induction {P : Nat → Prop} (hdigit : ∀ d < 16, P d)
    (hsnoc : ∀ n d, 0 < n → d < 16 → P n → P (n * 16 + d)) (n : Nat) : P n := by
  induction n using Nat.strongRecOn with
  | _ n ih =>
      by_cases hlt : n < 16
      · exact hdigit n hlt
      · have hpos : 0 < n / 16 := by omega
        have hless : n / 16 < n := by omega
        rw [← Nat.div_add_mod' n 16]
        exact hsnoc (n / 16) (n % 16) hpos (Nat.mod_lt n (by decide)) (ih _ hless)

/-- A numeral reads back as its number. -/
theorem digits?_numeral (n : Nat) : digits? 0 (numeral n) = some n := by
  induction n using digit_induction with
  | hdigit d hd =>
      have hnone : digits? 0 [] = some 0 := rfl
      have hread := digits?_snoc hnone hd
      rwa [Nat.zero_mul, Nat.zero_add, List.nil_append, ← numeral_digit hd] at hread
  | hsnoc n d hn hd ih =>
      rw [numeral_snoc hn hd]
      exact digits?_snoc ih hd

/-- Whether characters are a numeral in lower case without leading zeros. -/
inductive IsNumeral : List Char → Prop
  | zero : IsNumeral ['0']
  | digits {c : Char} {cs : List Char} (hne : c ≠ '0') (hlower : ∀ d ∈ c :: cs, IsLower d) :
      IsNumeral (c :: cs)

/-- The digits of a number above zero do not begin with a zero. -/
theorem isNumeral_of_pos {n : Nat} (hn : 0 < n) :
    ∃ c cs, numeral n = c :: cs ∧ c ≠ '0' ∧ ∀ d ∈ c :: cs, IsLower d := by
  induction n using digit_induction with
  | hdigit d hd =>
      refine ⟨digit d, [], numeral_digit hd, fun hzero => ?_, ?_⟩
      · exact Nat.ne_of_gt hn (Nat.digitChar_eq_zero.1 hzero)
      · intro c hc
        rw [List.mem_singleton.1 hc]
        exact isLower_digit hd
  | hsnoc n d hpos hd ih =>
      rcases ih hpos with ⟨c, cs, hnumeral, hne, hlower⟩
      refine ⟨c, cs ++ [digit d], by rw [numeral_snoc hpos hd, hnumeral]; rfl, hne, ?_⟩
      intro x hx
      rw [← List.cons_append] at hx
      rcases List.mem_append.1 hx with hx | hx
      · exact hlower x hx
      · rw [List.mem_singleton.1 hx]
        exact isLower_digit hd

theorem isNumeral_numeral (n : Nat) : IsNumeral (numeral n) := by
  rcases Nat.eq_zero_or_pos n with rfl | hpos
  · exact .zero
  · rcases isNumeral_of_pos hpos with ⟨c, cs, hnumeral, hne, hlower⟩
    rw [hnumeral]
    exact .digits hne hlower

/-- Digits that are read behind a number above zero are written behind its numeral. -/
theorem exists_numeral_append {cs : List Char} (h : ∀ c ∈ cs, IsLower c) {value : Nat}
    (hpos : 0 < value) : ∃ n, digits? value cs = some n ∧ numeral n = numeral value ++ cs := by
  induction cs generalizing value with
  | nil => exact ⟨value, rfl, (List.append_nil _).symm⟩
  | cons c cs ih =>
      rcases exists_digit (h c List.mem_cons_self) with ⟨d, hd, rfl⟩
      rcases ih (fun c hc => h c (List.mem_cons_of_mem _ hc)) (by omega : 0 < value * 16 + d) with
        ⟨n, hread, hnumeral⟩
      refine ⟨n, ?_, ?_⟩
      · simpa only [digits?, digit?_digit hd] using hread
      · rw [hnumeral, numeral_snoc hpos hd, List.append_assoc]
        rfl

/-- A numeral is the written form of the number that it denotes. -/
theorem exists_numeral {cs : List Char} (h : IsNumeral cs) :
    ∃ n, digits? 0 cs = some n ∧ numeral n = cs := by
  cases h with
  | zero => exact ⟨0, rfl, rfl⟩
  | @digits c cs hne hlower =>
      rcases exists_digit (hlower c List.mem_cons_self) with ⟨d, hd, rfl⟩
      have hpos : 0 < d := Nat.pos_of_ne_zero fun hzero => hne (by rw [hzero]; rfl)
      rcases exists_numeral_append (fun c hc => hlower c (List.mem_cons_of_mem _ hc)) hpos with
        ⟨n, hread, hnumeral⟩
      refine ⟨n, ?_, ?_⟩
      · simpa only [digits?, digit?_digit hd, Nat.zero_mul, Nat.zero_add] using hread
      · rw [hnumeral, numeral_digit hd]
        rfl

/-! ## Quantities -/

/-- Whether a text is `0x` and a numeral in lower case without leading zeros. -/
def IsQuantity (s : String) : Prop :=
  ∃ cs, s.toList = '0' :: 'x' :: cs ∧ IsNumeral cs

theorem isQuantity_quantity (n : UInt64) : IsQuantity (quantity n) :=
  ⟨numeral n.toNat, String.toList_ofList, isNumeral_numeral _⟩

/-- No numeral begins with a sign. -/
theorem unsigned?_of_isNumeral {cs : List Char} (h : IsNumeral cs) :
    unsigned? cs = digits? 0 cs := by
  cases h with
  | zero => rfl
  | @digits c cs _ hlower =>
      have hplus : c ≠ '+' := by
        rintro rfl
        exact absurd (hlower '+' List.mem_cons_self) (by decide)
      unfold unsigned?
      split
      · rename_i heq
        cases heq
      · rename_i heq
        exact absurd (List.cons.inj heq).1 hplus
      · rename_i heq
        exact absurd (List.cons.inj heq).1 hplus
      · rename_i heq
        rw [heq]

/-- A quantity whose number fits is read as it, and is its written form. -/
theorem quantity?_of_isQuantity {s : String} (h : IsQuantity s) :
    ∃ v, digits? 0 (s.toList.drop 2) = some v ∧
      (v < UInt64.size → ∃ n : UInt64, n.toNat = v ∧ quantity? s = some n ∧ quantity n = s) := by
  rcases h with ⟨cs, hs, hcs⟩
  rcases exists_numeral hcs with ⟨v, hread, hnumeral⟩
  refine ⟨v, by rw [hs]; exact hread, fun hv => ?_⟩
  have hn : (UInt64.ofNat v).toNat = v := UInt64.toNat_ofNat_of_lt hv
  refine ⟨.ofNat v, hn, ?_, ?_⟩
  · rw [quantity?, hs, quantityOfList?, withoutMarker, unsigned?_of_isNumeral hcs, hread]
    simp only [hv, if_true]
  · rw [quantity, hn, hnumeral, ← hs, String.ofList_toList]

/-- A quantity reads back as its number. -/
theorem quantity?_quantity (n : UInt64) : quantity? (quantity n) = some n := by
  rcases quantity?_of_isQuantity (isQuantity_quantity n) with ⟨v, hread, hfits⟩
  have hv : v = n.toNat := by
    have hnumeral : digits? 0 (numeral n.toNat) = some v := by
      rwa [quantity, String.toList_ofList] at hread
    exact Option.some.inj (hnumeral.symm.trans (digits?_numeral n.toNat))
  rcases hfits (hv ▸ n.toNat_lt_size) with ⟨m, hm, hparsed, -⟩
  rw [hparsed, UInt64.toNat_inj.1 (hm.trans hv)]

theorem quantity_injective {m n : UInt64} (h : quantity m = quantity n) : m = n := by
  have hread := congrArg quantity? h
  rw [quantity?_quantity, quantity?_quantity] at hread
  exact Option.some.inj hread

end Hex
end TxWorkload
