import TxWorkload.Proofs.Hex.Bytes
import TxWorkload.Proofs.Text.Ascii

/-!
# Digit — hexadecimal digits of either case

A digit is an ASCII character, and in lower case it is the written form of its value. So the number
that digits denote does not depend on their case, and it is the number that the bytes denote which
are read from pairs of digits.
-/

namespace TxWorkload
namespace Hex

/-- Whether a character is a hexadecimal digit of either case. -/
def IsDigit (c : Char) : Prop :=
  '0' ≤ c ∧ c ≤ '9' ∨ 'a' ≤ c ∧ c ≤ 'f' ∨ 'A' ≤ c ∧ c ≤ 'F'

instance (c : Char) : Decidable (IsDigit c) :=
  inferInstanceAs (Decidable (_ ∨ _))

theorem isSome_digit?_iff {c : Char} : (digit? c).isSome = true ↔ IsDigit c := by
  unfold digit? IsDigit
  split
  · simp [*]
  · split
    · simp [*]
    · split <;> simp [*]

theorem toNat_of_isDigit {c : Char} (h : IsDigit c) : c.toNat < 128 := by
  rcases h with ⟨-, hle⟩ | ⟨-, hle⟩ | ⟨-, hle⟩
  all_goals
    have hle : c.toNat ≤ _ := hle
    exact Nat.lt_of_le_of_lt hle (by decide)

/-- A digit in lower case is the written form of its value. -/
theorem exists_value {c : Char} (h : IsDigit c) :
    ∃ d < 16, digit? c = some d ∧ c.toLower = digit d :=
  Text.forall_ascii
    (P := fun c => IsDigit c → ∃ d < 16, digit? c = some d ∧ c.toLower = digit d)
    (by decide +kernel) (toNat_of_isDigit h) h

theorem isLower_toLower {c : Char} (h : IsDigit c) : IsLower c.toLower := by
  rcases exists_value h with ⟨d, hd, -, hlower⟩
  rw [hlower]
  exact isLower_digit hd

theorem isDigit_of_isLower {c : Char} (h : IsLower c) : IsDigit c :=
  h.imp_right .inl

theorem toLower_of_isLower {c : Char} (h : IsLower c) : c.toLower = c := by
  rcases exists_digit h with ⟨d, hd, rfl⟩
  revert d
  decide

theorem digit?_toLower {c : Char} (h : IsDigit c) : digit? c.toLower = digit? c := by
  rcases exists_value h with ⟨d, hd, hvalue, hlower⟩
  rw [hlower, digit?_digit hd, hvalue]

/-- The number that digits denote is that of the digits in lower case. -/
theorem digits?_map_toLower {cs : List Char} (h : ∀ c ∈ cs, IsDigit c) (value : Nat) :
    digits? value (cs.map Char.toLower) = digits? value cs := by
  induction cs generalizing value with
  | nil => rfl
  | cons c cs ih =>
      simp only [List.map_cons, digits?, digit?_toLower (h c (.head _))]
      cases digit? c with
      | none => rfl
      | some d => exact ih (fun c hc => h c (.tail _ hc)) _

theorem map_toLower_of_isLower {cs : List Char} (h : ∀ c ∈ cs, IsLower c) :
    cs.map Char.toLower = cs := by
  rw [List.map_congr_left fun c hc => toLower_of_isLower (h c hc), List.map_id']

/-! ## Bytes -/

/-- Pairs of digits are read as bytes that denote the same number. -/
theorem exists_decodePairs {n : Nat} {cs : List Char} (hlength : cs.length = 2 * n)
    (h : ∀ c ∈ cs, IsDigit c) (position : Nat) :
    ∃ bytes, decodePairs position (cs.map fun c => .ofNat c.toNat) = .ok bytes ∧
      bytes.length = n ∧
      ∀ value, digits? value cs = some (bytes.foldl (fun k b => k * 256 + b.toNat) value) := by
  induction n generalizing cs position with
  | zero =>
      obtain rfl := List.length_eq_zero_iff.1 hlength
      exact ⟨[], rfl, rfl, fun _ => rfl⟩
  | succ n ih =>
      rcases cs with _ | ⟨a, _ | ⟨b, cs⟩⟩
      · cases hlength
      · cases n <;> cases hlength
      · rcases exists_value (h a (by simp)) with ⟨high, hhigh, ha, -⟩
        rcases exists_value (h b (by simp)) with ⟨low, hlow, hb, -⟩
        have hrest : cs.length = 2 * n := Nat.succ.inj (Nat.succ.inj hlength)
        rcases ih hrest (fun c hc => h c (.tail _ (.tail _ hc))) (position + 2) with
          ⟨bytes, hbytes, hcount, hvalue⟩
        have hbyte : (UInt8.ofNat (high * 16 + low)).toNat = high * 16 + low :=
          UInt8.toNat_ofNat_of_lt' (show high * 16 + low < 256 by omega)
        refine ⟨.ofNat (high * 16 + low) :: bytes, ?_, by rw [List.length_cons, hcount], ?_⟩
        · simp only [List.map_cons, decodePairs,
            byteDigit_eq_ok (toNat_of_isDigit (h a (by simp))) ha,
            byteDigit_eq_ok (toNat_of_isDigit (h b (by simp))) hb, hbytes]
          rfl
        · intro value
          have hshift : (value * 16 + high) * 16 + low = value * 256 + (high * 16 + low) := by omega
          simp only [digits?, ha, hb, List.foldl_cons, hbyte, ← hshift]
          exact hvalue _

/-- A text of digits is read as bytes, half as many, that denote the same number. -/
theorem exists_decode {n : Nat} {cs : List Char} (hlength : cs.length = 2 * n)
    (h : ∀ c ∈ cs, IsDigit c) :
    ∃ bytes, decode (String.ofList cs).toUTF8.toList = .ok bytes ∧ bytes.length = n ∧
      digits? 0 cs = some (bigEndian bytes) := by
  rcases exists_decodePairs hlength h 0 with ⟨bytes, hbytes, hcount, hvalue⟩
  refine ⟨bytes, ?_, hcount, hvalue 0⟩
  rw [toUTF8_ofList fun c hc => toNat_of_isDigit (h c hc), decode, List.length_map, hlength,
    Nat.mul_mod_right, if_pos rfl, hbytes]

end Hex
end TxWorkload
