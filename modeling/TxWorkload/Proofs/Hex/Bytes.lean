import TxWorkload.Hex.Bytes
import TxWorkload.Proofs.Hex.Quantity

/-!
# Bytes — byte strings that read back

A byte is written as two digits in lower case, and two digits are read as one byte. A text of
digits has one byte for each of its characters, so what is read from its bytes is what was written.
-/

namespace TxWorkload
namespace Hex

/-! ## Texts as bytes -/

/-- The bytes of an array, from some place on. -/
theorem toList_loop (bytes : ByteArray) (i : Nat) (before : List UInt8) :
    ByteArray.toList.loop bytes i before = before.reverse ++ bytes.data.toList.drop i := by
  fun_induction ByteArray.toList.loop bytes i before with
  | case1 i before h ih =>
      have hi : i < bytes.data.toList.length := h
      have hget : bytes.get! i = bytes.data.toList[i] := getElem!_pos bytes.data i h
      rw [ih, List.drop_eq_getElem_cons hi, hget, List.reverse_cons, List.append_assoc]
      rfl
  | case2 i before h =>
      have hi : bytes.data.toList.length ≤ i := Nat.le_of_not_lt h
      rw [List.drop_eq_nil_of_le hi, List.append_nil]

theorem utf8EncodeChar_of_lt {c : Char} (h : c.toNat < 128) :
    String.utf8EncodeChar c = [.ofNat c.toNat] := by
  have h' : c.val.toNat ≤ 127 := Nat.le_of_lt_succ h
  rw [String.utf8EncodeChar]
  simp only [if_pos h']
  rfl

/-- A text of ASCII characters has one byte for each of them. -/
theorem toUTF8_ofList {cs : List Char} (h : ∀ c ∈ cs, c.toNat < 128) :
    (String.ofList cs).toUTF8.toList = cs.map fun c => .ofNat c.toNat := by
  have hflat : cs.flatMap String.utf8EncodeChar = cs.map fun c => .ofNat c.toNat := by
    induction cs with
    | nil => rfl
    | cons c cs ih =>
        rw [List.flatMap_cons, utf8EncodeChar_of_lt (h c (.head _)),
          ih fun d hd => h d (.tail _ hd)]
        rfl
  rw [String.toUTF8_eq_toByteArray, String.toByteArray_ofList, List.utf8Encode, hflat,
    ByteArray.toList, toList_loop, List.toList_data_toByteArray]
  rfl

/-! ## Pairs of digits -/

theorem isLower_of_mem_encodeList {bytes : List UInt8} {c : Char} (h : c ∈ encodeList bytes) :
    IsLower c := by
  rcases List.mem_flatMap.1 h with ⟨b, -, hc⟩
  have hb := b.toNat_lt
  rcases List.mem_cons.1 hc with rfl | hc
  · exact isLower_digit (by omega)
  · rw [List.mem_singleton.1 hc]
    exact isLower_digit (by omega)

theorem length_encodeList (bytes : List UInt8) :
    (encodeList bytes).length = 2 * bytes.length := by
  induction bytes with
  | nil => rfl
  | cons b bytes ih =>
      change (encodeList bytes).length + 2 = 2 * (bytes.length + 1)
      rw [ih, Nat.mul_succ]

/-- A digit is an ASCII character. -/
theorem toNat_digit {d : Nat} (h : d < 16) : (digit d).toNat < 128 := by
  revert d
  decide

/-- The byte of a digit has the value of the digit. -/
theorem byteDigit_eq_ok {c : Char} {d : Nat} (hascii : c.toNat < 128) (hd : digit? c = some d)
    (position : Nat) : byteDigit (.ofNat c.toNat) position = .ok d := by
  have hchar : Char.ofNat (UInt8.ofNat c.toNat).toNat = c := by
    rw [UInt8.toNat_ofNat_of_lt' (Nat.lt_trans hascii (by decide)), Char.ofNat_toNat]
  rw [byteDigit, hchar, hd]

theorem byteDigit_digit {d : Nat} (h : d < 16) (position : Nat) :
    byteDigit (.ofNat (digit d).toNat) position = .ok d :=
  byteDigit_eq_ok (toNat_digit h) (digit?_digit h) position

/-- Two digits a byte are read as they were written, wherever they stand. -/
theorem decodePairs_encodeList (bytes : List UInt8) (position : Nat) :
    decodePairs position ((encodeList bytes).map fun c => .ofNat c.toNat) = .ok bytes := by
  induction bytes generalizing position with
  | nil => rfl
  | cons b bytes ih =>
      have hb := b.toNat_lt
      have hbyte : UInt8.ofNat (b.toNat / 16 * 16 + b.toNat % 16) = b := by
        rw [Nat.div_add_mod', UInt8.ofNat_toNat]
      change decodePairs position (_ :: _ :: (encodeList bytes).map _) = _
      simp only [decodePairs, byteDigit_digit (by omega : b.toNat / 16 < 16),
        byteDigit_digit (by omega : b.toNat % 16 < 16), ih]
      change Except.ok (UInt8.ofNat (b.toNat / 16 * 16 + b.toNat % 16) :: bytes) = _
      rw [hbyte]

/-- A byte string reads back from the text of its digits. -/
theorem decode_encodeList (bytes : List UInt8) :
    decode (String.ofList (encodeList bytes)).toUTF8.toList = .ok bytes := by
  have hascii : ∀ c ∈ encodeList bytes, c.toNat < 128 := by
    intro c hc
    rcases exists_digit (isLower_of_mem_encodeList hc) with ⟨d, hd, rfl⟩
    exact toNat_digit hd
  rw [toUTF8_ofList hascii, decode, List.length_map, length_encodeList, Nat.mul_mod_right,
    if_pos rfl, decodePairs_encodeList]

/-! ## Payload data -/

theorem data_eq_append (bytes : List UInt8) :
    data bytes = "0x" ++ String.ofList (encodeList bytes) := by
  have hmarker : "0x".toList = ['0', 'x'] := rfl
  rw [data, ← String.toList_inj, String.toList_append, hmarker]
  simp only [String.toList_ofList, List.cons_append, List.nil_append]

theorem data_injective {bytes more : List UInt8} (h : data bytes = data more) : bytes = more := by
  have hdigits : encodeList bytes = encodeList more := by
    have hlist := String.ofList_injective h
    exact (List.cons.inj (List.cons.inj hlist).2).2
  have hread := decode_encodeList bytes
  rw [hdigits, decode_encodeList more] at hread
  exact (Except.ok.inj hread).symm

end Hex
end TxWorkload
