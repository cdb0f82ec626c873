import TxWorkload.Activity.Submission
import TxWorkload.Proofs.Hex.Bytes

/-!
# Encoding — nothing of a transaction is lost

The addresses stand in the encoded transaction as they are, and each of the other four texts reads
back as the field that it was written from. So transactions with equal encodings are equal.
-/

namespace TxWorkload
namespace Transaction

open TxWorkload.Hex (IsLower IsQuantity quantity quantity?)

/-- The members of the encoded transaction, in the order of their keys. -/
theorem encode_eq (t : Transaction) :
    t.encode = .object
      [("data", .text (Hex.data t.payload)), ("from", .text t.sender),
        ("gas", .text (quantity t.gas)), ("gasPrice", .text (quantity t.gasPrice)),
        ("to", .text t.recipient), ("value", .text (quantity t.value))] := by
  simp only [encode, members, Json.ofMembers, Json.insertMember, List.foldl, String.reduceLT,
    String.reduceEq, if_true, if_false]

theorem encode_injective {t t' : Transaction} (h : t.encode = t'.encode) : t = t' := by
  rw [encode_eq, encode_eq] at h
  simp only [Json.object.injEq, List.cons.injEq, Prod.mk.injEq, Json.text.injEq, true_and,
    and_true] at h
  rcases h with ⟨hpayload, hsender, hgas, hgasPrice, hrecipient, hvalue⟩
  cases t
  cases t'
  simp only [Transaction.mk.injEq]
  exact ⟨hsender, hrecipient, Hex.quantity_injective hvalue, Hex.quantity_injective hgas,
    Hex.quantity_injective hgasPrice, Hex.data_injective hpayload⟩

/-- What is sent for a transaction is one object of six texts. The addresses are verbatim; the
quantities are canonical and read back as the numbers; the payload has two digits in lower case a
byte and reads back as it was. In turn a canonical quantity below `2 ^ 64` is the written form of
what is read from it, and different transactions are never encoded alike. -/
theorem encode_lossless (t : Transaction) :
    (∃ value gas gasPrice digits : String,
      t.encode = .object
        [("data", .text ("0x" ++ digits)), ("from", .text t.sender), ("gas", .text gas),
          ("gasPrice", .text gasPrice), ("to", .text t.recipient), ("value", .text value)] ∧
      (IsQuantity value ∧ quantity? value = some t.value) ∧
      (IsQuantity gas ∧ quantity? gas = some t.gas) ∧
      (IsQuantity gasPrice ∧ quantity? gasPrice = some t.gasPrice) ∧
      digits.length = 2 * t.payload.length ∧ (∀ c ∈ digits.toList, IsLower c) ∧
      Hex.decode digits.toUTF8.toList = .ok t.payload) ∧
    (∀ endpoint, (Activity.submissionCall t endpoint).params = .array [t.encode]) ∧
    (∀ s, IsQuantity s →
      ∃ v, Hex.digits? 0 (s.toList.drop 2) = some v ∧
        (v < UInt64.size → ∃ n, n.toNat = v ∧ quantity? s = some n ∧ quantity n = s)) ∧
    ∀ t', t'.encode = t.encode → t' = t := by
  refine ⟨⟨quantity t.value, quantity t.gas, quantity t.gasPrice,
    String.ofList (Hex.encodeList t.payload), ?_, ?_, ?_, ?_, ?_, ?_, ?_⟩, ?_, ?_, ?_⟩
  · rw [encode_eq, Hex.data_eq_append]
  · exact ⟨Hex.isQuantity_quantity _, Hex.quantity?_quantity _⟩
  · exact ⟨Hex.isQuantity_quantity _, Hex.quantity?_quantity _⟩
  · exact ⟨Hex.isQuantity_quantity _, Hex.quantity?_quantity _⟩
  · rw [String.length_ofList, Hex.length_encodeList]
  · intro c hc
    rw [String.toList_ofList] at hc
    exact Hex.isLower_of_mem_encodeList hc
  · exact Hex.decode_encodeList _
  · intro endpoint
    rfl
  · intro s hs
    exact Hex.quantity?_of_isQuantity hs
  · intro t' h
    exact encode_injective h

/-- A call of a contract without value, at the greatest price of gas, with bytes below and above
`0x10` in its payload; the canonical quantity is the gas of a transfer. -/
theorem encode_lossless_contractCall :
    let t : Transaction := ⟨"0xAb", "0xcD", 0, 21000, 18446744073709551615, [0, 15, 0xa9, 255]⟩
    t.encode = .object
      [("data", .text "0x000fa9ff"), ("from", .text "0xAb"), ("gas", .text "0x5208"),
        ("gasPrice", .text "0xffffffffffffffff"), ("to", .text "0xcD"), ("value", .text "0x0")] ∧
      quantity? "0x5208" = some 21000 ∧ quantity 21000 = "0x5208" := by
  intro t
  rcases encode_lossless t with ⟨-, -, hquantity, -⟩
  have hgas : quantity 21000 = "0x5208" := by decide +kernel
  have hcanonical : IsQuantity "0x5208" := by
    rw [← hgas]
    exact Hex.isQuantity_quantity 21000
  rcases hquantity "0x5208" hcanonical with ⟨v, hv, hread⟩
  have hvalue : v = 21000 := by
    have h : Hex.digits? 0 ("0x5208".toList.drop 2) = some 21000 := rfl
    exact Option.some.inj (hv.symm.trans h)
  subst hvalue
  rcases hread (by decide) with ⟨n, hn, hparsed, hwritten⟩
  have heq : n = 21000 := UInt64.toNat_inj.1 hn
  subst heq
  have hpayload : Hex.data [0, 15, 0xa9, 255] = "0x000fa9ff" := by decide +kernel
  have hprice : quantity 18446744073709551615 = "0xffffffffffffffff" := by decide +kernel
  have hzero : quantity 0 = "0x0" := by decide +kernel
  exact ⟨by rw [encode_eq, hpayload, hwritten, hprice, hzero], hparsed, hwritten⟩

end Transaction
end TxWorkload
