import Mathlib.Data.List.Forall2
import TxWorkload.Proofs.Account.Key

/-!
# PrivateKeys — pools made from private keys

A key that denotes a secret gives one account: its normal form, and the address of the secret. The
addresses that are derived are always well-formed, so keys make a pool if all of them are good and
two of their addresses differ. Otherwise the first bad key is reported, or that there are too few
accounts. Only the digits of a key count, so a key may be replaced by its normal form.
-/

namespace TxWorkload
namespace Account

/-! ## Lists, element by element -/

theorem exists_of_mem {α β : Type} {R : α → β → Prop} {xs : List α} {ys : List β}
    (h : List.Forall₂ R xs ys) {x : α} (hx : x ∈ xs) : ∃ y ∈ ys, R x y := by
  induction h with
  | nil => cases hx
  | cons hhead _ ih =>
      rcases List.mem_cons.1 hx with rfl | hx
      · exact ⟨_, .head _, hhead⟩
      · rcases ih hx with ⟨y, hy, hR⟩
        exact ⟨y, .tail _ hy, hR⟩

section

variable {ε α β : Type} {f : α → Except ε β}

theorem mapM_of_forall₂ {xs : List α} {ys : List β}
    (h : List.Forall₂ (fun x y => f x = .ok y) xs ys) : xs.mapM f = .ok ys := by
  induction h with
  | nil => rfl
  | cons hx _ ih =>
      rw [List.mapM_cons, hx, ih]
      rfl

/-- The first error ends the list. -/
theorem mapM_of_error {before after : List α} {x : α} {e : ε}
    (hbefore : ∀ y ∈ before, ∃ b, f y = .ok b) (hx : f x = .error e) :
    (before ++ x :: after).mapM f = .error e := by
  induction before with
  | nil =>
      rw [List.nil_append, List.mapM_cons, hx]
      rfl
  | cons y before ih =>
      rcases hbefore y (.head _) with ⟨b, hb⟩
      rw [List.cons_append, List.mapM_cons, hb, ih fun y hy => hbefore y (.tail _ hy)]
      rfl

/-- There is a result for every element, or a first element that has none. -/
theorem forall₂_or_error (f : α → Except ε β) (xs : List α) :
    (∃ ys, List.Forall₂ (fun x y => f x = .ok y) xs ys) ∨
      ∃ before x after e, xs = before ++ x :: after ∧ (∀ y ∈ before, ∃ b, f y = .ok b) ∧
        f x = .error e := by
  -- The list is searched from the front, so what fails at the head is the first.
  induction xs with
  | nil => exact .inl ⟨[], .nil⟩
  | cons x xs ih =>
      cases hx : f x with
      | error e => exact .inr ⟨[], x, xs, e, rfl, nofun, hx⟩
      | ok b =>
          rcases ih with ⟨ys, hys⟩ | ⟨before, x', after, e, rfl, hbefore, hx'⟩
          · exact .inl ⟨b :: ys, .cons hx hys⟩
          · refine .inr ⟨x :: before, x', after, e, rfl, ?_, hx'⟩
            rintro y (_ | ⟨_, hy⟩)
            · exact ⟨b, hx⟩
            · exact hbefore y hy

end

/-! ## One key -/

namespace Key

/-- Whether a text denotes a secret. -/
def Good (key : String) : Prop :=
  ∃ digits k, Spells key digits ∧ Hex.digits? 0 digits = some k ∧ 0 < k ∧ k < Secp256k1.order

/-- Why a text denotes no secret: it spells no key, or the key is no number in range. -/
inductive Bad (key : String) : Error → Prop
  | misspelt (h : ∀ digits, ¬ Spells key digits) : Bad key (misspelt key)
  | outOfRange {digits : List Char} {k : Nat} (h : Spells key digits)
      (hk : Hex.digits? 0 digits = some k) (hrange : ¬ (0 < k ∧ k < Secp256k1.order)) :
      Bad key outOfRange

/-- The account of a key: its normal form, and the address of the secret that it denotes. -/
inductive Derives (key : String) : Holder → Prop
  | intro {digits : List Char} {k : Nat} (h : Spells key digits)
      (hk : Hex.digits? 0 digits = some k) (hpos : 0 < k) (hlt : k < Secp256k1.order) :
      Derives key ⟨addressOf k, normalForm digits⟩

variable {key : String} {a : Holder} {e : Error}

theorem isSecret_iff {k : Nat} : Secp256k1.isSecret k = true ↔ 0 < k ∧ k < Secp256k1.order := by
  rw [Secp256k1.isSecret, Bool.and_eq_true, decide_eq_true_iff, decide_eq_true_iff]

theorem holderOf_of_spells {digits : List Char} (h : Spells key digits) {k : Nat}
    (hk : Hex.digits? 0 digits = some k) :
    Pool.holderOf key =
      if 0 < k ∧ k < Secp256k1.order then .ok ⟨addressOf k, normalForm digits⟩
      else .error outOfRange := by
  have hnormalize := normalize_of_spells h
  -- The address is derived from the normal form, not from the key.
  have haddress := (address_normal hnormalize).trans (address_of_spells h hk)
  by_cases hrange : 0 < k ∧ k < Secp256k1.order
  · simp only [Pool.holderOf, hnormalize, bind, Except.bind, haddress, isSecret_iff, if_pos hrange]
    rfl
  · simp only [Pool.holderOf, hnormalize, bind, Except.bind, haddress, isSecret_iff, if_neg hrange]

theorem holderOf_of_not (h : ∀ digits, ¬ Spells key digits) :
    Pool.holderOf key = .error (misspelt key) := by
  rw [Pool.holderOf, normalize_of_not h]
  rfl

theorem holderOf_of_derives (h : Derives key a) : Pool.holderOf key = .ok a := by
  cases h with
  | intro h hk hpos hlt => rw [holderOf_of_spells h hk, if_pos ⟨hpos, hlt⟩]

theorem holderOf_of_bad (h : Bad key e) : Pool.holderOf key = .error e := by
  cases h with
  | misspelt h => exact holderOf_of_not h
  | outOfRange h hk hrange => rw [holderOf_of_spells h hk, if_neg hrange]

/-- A key has an account or a fault. -/
theorem derives_or_bad (key : String) : (∃ a, Derives key a) ∨ ∃ e, Bad key e := by
  by_cases hspells : ∃ digits, Spells key digits
  · rcases hspells with ⟨digits, h⟩
    rcases h.exists_number with ⟨k, hk⟩
    by_cases hrange : 0 < k ∧ k < Secp256k1.order
    · exact .inl ⟨_, .intro h hk hrange.1 hrange.2⟩
    · exact .inr ⟨_, .outOfRange h hk hrange⟩
  · exact .inr ⟨_, .misspelt fun digits h => hspells ⟨digits, h⟩⟩

theorem holderOf_eq_ok_iff : Pool.holderOf key = .ok a ↔ Derives key a := by
  refine ⟨?_, holderOf_of_derives⟩
  intro h
  rcases derives_or_bad key with ⟨a', ha'⟩ | ⟨e, he⟩
  · cases h.symm.trans (holderOf_of_derives ha')
    exact ha'
  · cases h.symm.trans (holderOf_of_bad he)

theorem holderOf_eq_error_iff : Pool.holderOf key = .error e ↔ Bad key e := by
  refine ⟨?_, holderOf_of_bad⟩
  intro h
  rcases derives_or_bad key with ⟨a, ha⟩ | ⟨e', he'⟩
  · cases h.symm.trans (holderOf_of_derives ha)
  · cases h.symm.trans (holderOf_of_bad he')
    exact he'

theorem Bad.not_good (h : Bad key e) : ¬ Good key := by
  rintro ⟨digits, k, hspells, hk, hpos, hlt⟩
  cases (holderOf_of_bad h).symm.trans (holderOf_of_derives (.intro hspells hk hpos hlt))

theorem exists_derives_iff : (∃ a, Derives key a) ↔ Good key := by
  constructor
  · rintro ⟨a, ⟨h, hk, hpos, hlt⟩⟩
    exact ⟨_, _, h, hk, hpos, hlt⟩
  · rintro ⟨digits, k, h, hk, hpos, hlt⟩
    exact ⟨_, .intro h hk hpos hlt⟩

namespace Derives

theorem address_eq (h : Derives key a) : address key = .ok a.address := by
  cases h with
  | intro h hk hpos hlt => rw [address_of_spells h hk, if_pos (isSecret_iff.2 ⟨hpos, hlt⟩)]

theorem isAddress (h : Derives key a) : IsAddress a.address := by
  cases h with
  | intro => exact isAddress_addressOf _

theorem identity_eq (h : Derives key a) : a.identity = a.address := by
  cases h with
  | intro => exact lowerAscii_addressOf _

/-- Two accounts are the same if and only if the addresses of their keys are. -/
theorem identity_eq_iff {key' : String} {a' : Holder} (h : Derives key a) (h' : Derives key' a') :
    a.identity = a'.identity ↔ address key = address key' := by
  rw [h.identity_eq, h'.identity_eq, h.address_eq, h'.address_eq, Except.ok.injEq]

end Derives

/-- A key and its normal form have the same account. -/
theorem holderOf_normal {normal : String} (h : normalize key = .ok normal) :
    Pool.holderOf normal = Pool.holderOf key := by
  rw [Pool.holderOf, Pool.holderOf, normalize_normal h, h]

end Key

/-! ## Lists of keys -/

/-- Why keys make no pool: one of them is bad and no one before it is, or they are good but their
accounts are too few, or all of them have one address. -/
inductive Rejected (keys : List String) : Error → Prop
  | badKey {before after : List String} {key : String} {e : Error}
      (hsplit : keys = before ++ key :: after) (hbefore : ∀ k ∈ before, Key.Good k)
      (hbad : Key.Bad key e) : Rejected keys e
  | tooFew (hgood : ∀ key ∈ keys, Key.Good key) (hfew : keys.length < 2) :
      Rejected keys (.notEnoughAccounts 2 keys.length)
  | alike (hgood : ∀ key ∈ keys, Key.Good key) (henough : 2 ≤ keys.length)
      (halike : ∀ key ∈ keys, ∀ key' ∈ keys, Key.address key = Key.address key') :
      Rejected keys (.notEnoughAccounts 2 1)

namespace Pool

open Key (Good Bad Derives)

variable {keys : List String} {accounts : List Holder}

theorem derived_or_bad (keys : List String) :
    (∃ accounts, List.Forall₂ Derives keys accounts) ∨
      ∃ before key after e, keys = before ++ key :: after ∧ (∀ k ∈ before, Good k) ∧ Bad key e := by
  simpa only [Key.holderOf_eq_ok_iff, Key.holderOf_eq_error_iff, Key.exists_derives_iff] using
    forall₂_or_error holderOf keys

theorem ofPrivateKeys_of_derives (h : List.Forall₂ Derives keys accounts) :
    ofPrivateKeys keys = ofAccounts accounts := by
  rw [ofPrivateKeys, mapM_of_forall₂ (h.imp fun _ _ => Key.holderOf_of_derives)]
  rfl

theorem ofPrivateKeys_of_bad {before after : List String} {key : String} {e : Error}
    (hbefore : ∀ k ∈ before, Good k) (hbad : Bad key e) :
    ofPrivateKeys (before ++ key :: after) = .error e := by
  have hderived : ∀ k ∈ before, ∃ a, holderOf k = .ok a := by
    intro k hk
    simpa only [Key.holderOf_eq_ok_iff, Key.exists_derives_iff] using hbefore k hk
  rw [ofPrivateKeys, mapM_of_error hderived (Key.holderOf_of_bad hbad)]
  rfl

/-! ## Derived accounts -/

section

variable (h : List.Forall₂ Derives keys accounts)
include h

theorem good_of_derives : ∀ key ∈ keys, Good key := by
  intro key hkey
  rcases exists_of_mem h hkey with ⟨a, -, ha⟩
  exact Key.exists_derives_iff.1 ⟨a, ha⟩

theorem isAddress_of_derives : ∀ a ∈ accounts, IsAddress a.address := by
  intro a ha
  rcases exists_of_mem h.flip ha with ⟨key, -, hkey⟩
  exact hkey.isAddress

/-- The accounts are one account if and only if the keys have one address. -/
theorem alike_iff :
    (∀ a ∈ accounts, ∀ b ∈ accounts, a.identity = b.identity) ↔
      ∀ key ∈ keys, ∀ key' ∈ keys, Key.address key = Key.address key' := by
  constructor
  · intro halike key hkey key' hkey'
    rcases exists_of_mem h hkey with ⟨a, ha, hderives⟩
    rcases exists_of_mem h hkey' with ⟨b, hb, hderives'⟩
    exact (hderives.identity_eq_iff hderives').1 (halike a ha b hb)
  · intro halike a ha b hb
    rcases exists_of_mem h.flip ha with ⟨key, hkey, hderives⟩
    rcases exists_of_mem h.flip hb with ⟨key', hkey', hderives'⟩
    exact (hderives.identity_eq_iff hderives').2 (halike key hkey key' hkey')

/-- Derived accounts make a pool if and only if two keys have different addresses. -/
theorem admissible_iff :
    Admissible accounts ↔ ∃ key ∈ keys, ∃ key' ∈ keys, Key.address key ≠ Key.address key' := by
  have hdistinct : (∃ a ∈ accounts, ∃ b ∈ accounts, a.identity ≠ b.identity) ↔
      ∃ key ∈ keys, ∃ key' ∈ keys, Key.address key ≠ Key.address key' := by
    simpa only [not_forall, exists_prop] using not_congr (alike_iff h)
  rw [← hdistinct]
  constructor
  · exact Admissible.distinct
  · intro hdistinct
    refine ⟨?_, isAddress_of_derives h, hdistinct⟩
    rcases hdistinct with ⟨a, ha, b, hb, hne⟩
    rcases accounts with _ | ⟨c, _ | ⟨d, rest⟩⟩
    · cases ha
    · -- One account does not differ from itself.
      rw [List.mem_singleton.1 ha, List.mem_singleton.1 hb] at hne
      exact absurd rfl hne
    · exact Nat.le_add_left _ _

/-- Derived accounts are refused because there are too few of them, or all of them are one. -/
theorem refused_iff {e : Error} : Refused accounts e ↔ Rejected keys e := by
  have hgood := good_of_derives h
  have hlength := h.length_eq
  constructor
  · rintro (hfew | ⟨-, hsplit, -, hbad⟩ | ⟨henough, -, halike⟩)
    · rw [← hlength] at hfew ⊢
      exact .tooFew hgood hfew
    · -- No address that is derived is malformed.
      exact absurd (isAddress_of_derives h _ (by simp [hsplit])) hbad
    · exact .alike hgood (hlength ▸ henough) ((alike_iff h).1 halike)
  · rintro (⟨hsplit, -, hbad⟩ | ⟨-, hfew⟩ | ⟨-, henough, halike⟩)
    · exact absurd (hgood _ (by simp [hsplit])) hbad.not_good
    · rw [hlength] at hfew ⊢
      exact .tooFew hfew
    · exact .alike (hlength ▸ henough) (isAddress_of_derives h) ((alike_iff h).2 halike)

end

/-! ## Pools -/

theorem exists_pool_iff :
    (∃ p, ofPrivateKeys keys = .ok p) ↔
      (∀ key ∈ keys, Good key) ∧
        ∃ key ∈ keys, ∃ key' ∈ keys, Key.address key ≠ Key.address key' := by
  rcases derived_or_bad keys with ⟨accounts, h⟩ | ⟨before, key, after, e, rfl, hbefore, hbad⟩
  · rw [ofPrivateKeys_of_derives h, exists_ok_iff, admissible_iff h]
    exact (and_iff_right (good_of_derives h)).symm
  · rw [ofPrivateKeys_of_bad hbefore hbad]
    constructor
    · nofun
    · rintro ⟨hgood, -⟩
      exact absurd (hgood key (by simp)) hbad.not_good

/-- The accounts of a pool are those of the keys, in order. -/
theorem derives_of_ok {p : Pool} (hp : ofPrivateKeys keys = .ok p) :
    List.Forall₂ Derives keys p.accounts := by
  rcases derived_or_bad keys with ⟨accounts, h⟩ | ⟨before, key, after, e, rfl, hbefore, hbad⟩
  · rw [ofPrivateKeys_of_derives h] at hp
    rw [accounts_of_ok hp]
    exact h
  · cases hp.symm.trans (ofPrivateKeys_of_bad hbefore hbad)

theorem rejected_iff {e : Error} : ofPrivateKeys keys = .error e ↔ Rejected keys e := by
  rcases derived_or_bad keys with ⟨accounts, h⟩ | ⟨before, key, after, e', rfl, hbefore, hbad⟩
  · rw [ofPrivateKeys_of_derives h, eq_error_iff, refused_iff h]
  · constructor
    · intro he
      cases he.symm.trans (ofPrivateKeys_of_bad hbefore hbad)
      exact .badKey rfl hbefore hbad
    · rintro (⟨hsplit, hbefore', hbad'⟩ | ⟨hgood, -⟩ | ⟨hgood, -, -⟩)
      · rw [hsplit]
        exact ofPrivateKeys_of_bad hbefore' hbad'
      · exact absurd (hgood key (by simp)) hbad.not_good
      · exact absurd (hgood key (by simp)) hbad.not_good

theorem ofPrivateKeys_normal {normals : List String}
    (h : List.Forall₂ (fun key normal => normal = key ∨ Key.normalize key = .ok normal)
      keys normals) :
    ofPrivateKeys normals = ofPrivateKeys keys := by
  have hmapM : normals.mapM holderOf = keys.mapM holderOf := by
    induction h with
    | nil => rfl
    | cons hkey _ ih =>
        rw [List.mapM_cons, List.mapM_cons, ih]
        rcases hkey with rfl | hkey
        · rfl
        · rw [Key.holderOf_normal hkey]
  rw [ofPrivateKeys, ofPrivateKeys, hmapM]

theorem ne_invalidAddress (keys : List String) (text : String) :
    ofPrivateKeys keys ≠ .error (.invalidAddress text) := by
  rw [Ne, rejected_iff]
  rintro ⟨-, -, ⟨⟩⟩

/-- Private keys make a pool if all of them denote secrets and two of their addresses differ; the
accounts are those of the keys, in order. Otherwise the first bad key is reported with what is wrong
with it, and if there is none, that there are too few accounts; an address is never at fault. Normal
forms are their own normal forms, have the addresses of their keys, and make the same pools. -/
theorem ofPrivateKeys_admits_good (keys : List String) :
    ((∃ p, ofPrivateKeys keys = .ok p) ↔
      (∀ key ∈ keys, Good key) ∧
        ∃ key ∈ keys, ∃ key' ∈ keys, Key.address key ≠ Key.address key') ∧
    (∀ p, ofPrivateKeys keys = .ok p → List.Forall₂ Derives keys p.accounts ∧
      List.Forall₂ (fun key a => Key.address key = .ok a.address) keys p.accounts) ∧
    (∀ e, ofPrivateKeys keys = .error e ↔ Rejected keys e) ∧
    (∀ text, ofPrivateKeys keys ≠ .error (.invalidAddress text)) ∧
    (∀ key normal, Key.normalize key = .ok normal →
      Key.normalize normal = .ok normal ∧ Key.address normal = Key.address key) ∧
    ∀ normals, List.Forall₂ (fun key normal => normal = key ∨ Key.normalize key = .ok normal)
      keys normals → ofPrivateKeys normals = ofPrivateKeys keys := by
  refine ⟨exists_pool_iff, ?_, fun e => rejected_iff, ne_invalidAddress keys, ?_,
    fun normals => ofPrivateKeys_normal⟩
  · intro p hp
    have hderives := derives_of_ok hp
    exact ⟨hderives, hderives.imp fun _ _ => Derives.address_eq⟩
  · intro key normal h
    exact ⟨Key.normalize_normal h, Key.address_normal h⟩

/-- Two keys, one of them in upper case and without a marker, and their normal forms. -/
theorem ofPrivateKeys_admits_good_upperCase :
    let keys :=
      ["000000000000000000000000000000000000000000000000000000000000000A",
       "0x000000000000000000000000000000000000000000000000000000000000000b"]
    let normals :=
      ["0x000000000000000000000000000000000000000000000000000000000000000a",
       "0x000000000000000000000000000000000000000000000000000000000000000b"]
    Key.address normals[0] = Key.address keys[0] ∧
      ∃ p, ofPrivateKeys keys = .ok p ∧ ofPrivateKeys normals = .ok p ∧
        List.Forall₂ (fun key a => Key.address key = .ok a.address) keys p.accounts := by
  intro keys normals
  rcases ofPrivateKeys_admits_good keys with ⟨hexists, haccounts, -, -, hnormal, hnormals⟩
  have hgood : ∀ key ∈ keys, Good key := by
    simp only [keys, List.forall_mem_cons]
    have hten : Key.Spells keys[0] keys[0].toList :=
      ⟨.inl rfl, by decide, Key.allDigits_iff.1 (by decide +kernel)⟩
    have heleven : Key.Spells keys[1] (keys[1].toList.drop 2) :=
      ⟨.inr (by decide), by decide, Key.allDigits_iff.1 (by decide +kernel)⟩
    exact ⟨⟨_, 10, hten, by decide +kernel, by decide, by decide⟩,
      ⟨_, 11, heleven, by decide +kernel, by decide, by decide⟩, nofun⟩
  have hne : ∃ key ∈ keys, ∃ key' ∈ keys, Key.address key ≠ Key.address key' := by
    decide +kernel
  have hnormalize : Key.normalize keys[0] = .ok normals[0] := by decide +kernel
  rcases hexists.2 ⟨hgood, hne⟩ with ⟨p, hp⟩
  have hsame := hnormals normals (.cons (.inr hnormalize) (.cons (.inl rfl) .nil))
  exact ⟨(hnormal _ _ hnormalize).2, p, hp, hsame.trans hp, (haccounts p hp).2⟩

end Pool
end Account
end TxWorkload
