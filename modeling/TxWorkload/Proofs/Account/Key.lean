import TxWorkload.Proofs.Account.Admission
import TxWorkload.Proofs.Crypto.Keccak

/-!
# Key — texts that spell a private key

A key is spelled by 64 hexadecimal digits of either case, behind an optional marker. The marker is
no digit, so a text spells one row of digits at most. Its normal form spells the same digits in
lower case; both denote the same number and control the same address. The address of a secret is
well-formed and in lower case.
-/

namespace TxWorkload
namespace Account
namespace Key

open TxWorkload.Hex (IsDigit)

/-! ## Spelling -/

/-- Whether a text spells a key by some digits. -/
structure Spells (key : String) (digits : List Char) : Prop where
  marked : key.toList = digits ∨ key.toList = '0' :: 'x' :: digits
  length : digits.length = 64
  hexadecimal : ∀ c ∈ digits, IsDigit c

/-- The key that digits spell in lower case, behind the marker. -/
def normalForm (digits : List Char) : String :=
  String.ofList ('0' :: 'x' :: digits.map Char.toLower)

theorem eq_body_or (cs : List Char) : cs = body cs ∨ cs = '0' :: 'x' :: body cs := by
  unfold body
  split
  · exact .inr rfl
  · exact .inl rfl

/-- No digits begin with a marker. -/
theorem body_of_isDigit {cs : List Char} (h : ∀ c ∈ cs, IsDigit c) : body cs = cs := by
  unfold body
  split
  · exact absurd (h 'x' (by simp)) (by decide)
  · rfl

theorem utf8Length_eq {cs : List Char} (h : ∀ c ∈ cs, IsDigit c) : utf8Length cs = cs.length := by
  induction cs with
  | nil => rfl
  | cons c cs ih =>
      have hone : c.utf8Size = 1 :=
        Char.utf8Size_eq_one_iff.2 (Nat.le_of_lt_succ (Hex.toNat_of_isDigit (h c (.head _))))
      have hrest := ih fun c hc => h c (.tail _ hc)
      rw [utf8Length] at hrest ⊢
      rw [List.foldr_cons, hrest, hone, List.length_cons, Nat.add_comm]

variable {key : String} {digits : List Char}

theorem Spells.body_eq (h : Spells key digits) : body key.toList = digits := by
  rcases h.marked with hkey | hkey
  · rw [hkey, body_of_isDigit h.hexadecimal]
  · rw [hkey]
    rfl

theorem Spells.normalForm (h : Spells key digits) :
    Spells (normalForm digits) (digits.map Char.toLower) where
  marked := .inr String.toList_ofList
  length := (List.length_map _).trans h.length
  hexadecimal := by
    simp only [List.mem_map]
    rintro _ ⟨c, hc, rfl⟩
    exact Hex.isDigit_of_isLower (Hex.isLower_toLower (h.hexadecimal c hc))

theorem normalForm_map_toLower (h : Spells key digits) :
    Key.normalForm (digits.map Char.toLower) = Key.normalForm digits := by
  have hlower : ∀ c ∈ digits.map Char.toLower, Hex.IsLower c := by
    simp only [List.mem_map]
    rintro _ ⟨c, hc, rfl⟩
    exact Hex.isLower_toLower (h.hexadecimal c hc)
  rw [Key.normalForm, Hex.map_toLower_of_isLower hlower, Key.normalForm]

/-! ## Normal forms -/

/-- Why a text that spells no key has no normal form. -/
def misspelt (key : String) : Error :=
  .invalidPrivateKey s!"expected 32 hex-encoded bytes, got {utf8Length (body key.toList)} characters"

theorem normalize_of_spells (h : Spells key digits) : normalize key = .ok (normalForm digits) := by
  have hlength : utf8Length digits = 64 := (utf8Length_eq h.hexadecimal).trans h.length
  have hdigits : allDigits digits = true := allDigits_iff.2 h.hexadecimal
  simp only [normalize, h.body_eq, hlength, hdigits]
  rfl

theorem normalize_of_not (h : ∀ digits, ¬ Spells key digits) :
    normalize key = .error (misspelt key) := by
  have hnot : ¬ (utf8Length (body key.toList) = 64 ∧ allDigits (body key.toList) = true) := by
    rintro ⟨hlength, hdigits⟩
    have hdigits := allDigits_iff.1 hdigits
    rw [utf8Length_eq hdigits] at hlength
    exact h _ ⟨eq_body_or _, hlength, hdigits⟩
  simp only [normalize, hnot]
  rfl

theorem exists_spells_of_normalize {normal : String} (h : normalize key = .ok normal) :
    ∃ digits, Spells key digits ∧ normal = normalForm digits := by
  by_cases hspells : ∃ digits, Spells key digits
  · rcases hspells with ⟨digits, hspells⟩
    rw [normalize_of_spells hspells] at h
    cases h
    exact ⟨digits, hspells, rfl⟩
  · rw [normalize_of_not fun digits hdigits => hspells ⟨digits, hdigits⟩] at h
    cases h

/-- A normal form is its own. -/
theorem normalize_normal {normal : String} (h : normalize key = .ok normal) :
    normalize normal = .ok normal := by
  rcases exists_spells_of_normalize h with ⟨digits, hspells, rfl⟩
  rw [normalize_of_spells hspells.normalForm, normalForm_map_toLower hspells]

/-! ## Addresses -/

/-- Why digits that spell a key may denote no secret. -/
def outOfRange : Error :=
  .invalidPrivateKey "malformed or out-of-range secret key"

theorem Spells.exists_number (h : Spells key digits) : ∃ k, Hex.digits? 0 digits = some k := by
  rcases Hex.exists_decode (n := 32) h.length h.hexadecimal with ⟨bytes, -, -, hnumber⟩
  exact ⟨_, hnumber⟩

/-- The address of a key is that of the number that its digits denote, if the number is a secret. -/
theorem address_of_spells (h : Spells key digits) {k : Nat} (hk : Hex.digits? 0 digits = some k) :
    address key = if Secp256k1.isSecret k then .ok (addressOf k) else .error outOfRange := by
  -- The digits are read as 32 bytes, whose number is the one that the digits denote.
  rcases Hex.exists_decode (n := 32) h.length h.hexadecimal with
    ⟨bytes, hbytes, hcount, hnumber⟩
  cases hk.symm.trans hnumber
  simp only [address, h.body_eq, hbytes, secret?, hcount, true_and]
  cases Secp256k1.isSecret (Hex.bigEndian bytes) <;> rfl

/-- A key and its normal form have the same address. -/
theorem address_normal {normal : String} (h : normalize key = .ok normal) :
    address normal = address key := by
  rcases exists_spells_of_normalize h with ⟨digits, hspells, rfl⟩
  rcases hspells.exists_number with ⟨k, hk⟩
  have hlower : Hex.digits? 0 (digits.map Char.toLower) = some k := by
    rw [Hex.digits?_map_toLower hspells.hexadecimal, hk]
  rw [address_of_spells hspells hk, address_of_spells hspells.normalForm hlower]

/-- The digits of an address. -/
theorem exists_addressOf (k : Nat) :
    ∃ digits, addressOf k = String.ofList ('0' :: 'x' :: digits) ∧ digits.length = 40 ∧
      ∀ c ∈ digits, Hex.IsLower c := by
  refine ⟨_, rfl, ?_, fun c hc => Hex.isLower_of_mem_encodeList hc⟩
  rw [Hex.length_encodeList, List.length_drop, Keccak.length_hash256]

theorem isAddress_addressOf (k : Nat) : IsAddress (addressOf k) := by
  rcases exists_addressOf k with ⟨digits, haddress, hlength, hlower⟩
  rw [haddress]
  exact ⟨digits, String.toList_ofList, hlength, fun c hc => Hex.isDigit_of_isLower (hlower c hc)⟩

theorem lowerAscii_addressOf (k : Nat) : Text.lowerAscii (addressOf k) = addressOf k := by
  rcases exists_addressOf k with ⟨digits, haddress, -, hlower⟩
  rw [haddress, Text.lowerAscii, String.toList_ofList, List.map_cons, List.map_cons,
    Hex.map_toLower_of_isLower hlower]
  rfl

end Key
end Account
end TxWorkload
