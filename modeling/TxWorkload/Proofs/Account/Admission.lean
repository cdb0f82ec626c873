import Mathlib.Logic.Basic
import TxWorkload.Account.Pool
import TxWorkload.Proofs.Hex.Digit

/-!
# Admission — which accounts make a pool

Accounts are admitted if there are two of them at least, all addresses are well-formed, and some two
addresses differ in more than the case of letters. It is enough to compare every address with the
first one, because addresses that are the same as a third one are the same. What is not admitted is
refused for the first of these conditions that fails.
-/

namespace TxWorkload
namespace Account

/-! ## Addresses -/

theorem Key.allDigits_iff {cs : List Char} :
    Key.allDigits cs = true ↔ ∀ c ∈ cs, Hex.IsDigit c := by
  simp only [Key.allDigits, List.all_eq_true, Hex.isSome_digit?_iff]

/-- Whether a text is `0x` and exactly 40 hexadecimal digits of either case. -/
def IsAddress (s : String) : Prop :=
  ∃ digits, s.toList = '0' :: 'x' :: digits ∧ digits.length = 40 ∧ ∀ c ∈ digits, Hex.IsDigit c

theorem isAddress_iff {s : String} : isAddress s = true ↔ IsAddress s := by
  unfold isAddress
  split
  · rename_i digits hs
    rw [Bool.and_eq_true, beq_iff_eq, Key.allDigits_iff]
    constructor
    · rintro ⟨hlength, hdigits⟩
      exact ⟨digits, hs, hlength, hdigits⟩
    · rintro ⟨digits', hs', hlength, hdigits⟩
      obtain rfl : digits = digits' := by simpa using hs.symm.trans hs'
      exact ⟨hlength, hdigits⟩
  · rename_i hs
    constructor
    · nofun
    · rintro ⟨digits, hdigits, -⟩
      exact absurd hdigits (hs digits)

namespace Holder

/-- The address of an account with its letters in lower case, which tells accounts apart. -/
def identity (a : Holder) : String :=
  Text.lowerAscii a.address

theorem same_iff {a b : Holder} : a.same b = true ↔ a.identity = b.identity := by
  rw [same, Text.sameIgnoringCase, beq_iff_eq, identity, identity, Text.lowerAscii,
    Text.lowerAscii, String.ofList_inj]

theorem same_eq_false_iff {a b : Holder} : a.same b = false ↔ a.identity ≠ b.identity := by
  rw [← Bool.not_eq_true, same_iff]

end Holder

/-! ## Verdicts -/

/-- Whether accounts make a pool. -/
structure Admissible (accounts : List Holder) : Prop where
  enough : 2 ≤ accounts.length
  addresses : ∀ a ∈ accounts, IsAddress a.address
  distinct : ∃ a ∈ accounts, ∃ b ∈ accounts, a.identity ≠ b.identity

/-- Why accounts make no pool: there are too few of them, an address is malformed and no one before
it is, or all of them are one account. -/
inductive Refused (accounts : List Holder) : Error → Prop
  | tooFew (hfew : accounts.length < 2) :
      Refused accounts (.notEnoughAccounts 2 accounts.length)
  | malformed {before after : List Holder} {bad : Holder} (henough : 2 ≤ accounts.length)
      (hsplit : accounts = before ++ bad :: after) (hbefore : ∀ a ∈ before, IsAddress a.address)
      (hbad : ¬ IsAddress bad.address) : Refused accounts (.invalidAddress bad.address)
  | alike (henough : 2 ≤ accounts.length) (haddresses : ∀ a ∈ accounts, IsAddress a.address)
      (halike : ∀ a ∈ accounts, ∀ b ∈ accounts, a.identity = b.identity) :
      Refused accounts (.notEnoughAccounts 2 1)

variable {accounts : List Holder}

theorem find?_malformed_eq_some {before after : List Holder} {bad : Holder}
    (hsplit : accounts = before ++ bad :: after) (hbefore : ∀ a ∈ before, IsAddress a.address)
    (hbad : ¬ IsAddress bad.address) :
    (accounts.find? fun a => !isAddress a.address) = some bad := by
  rw [List.find?_eq_some_iff_append]
  refine ⟨by simpa [← isAddress_iff] using hbad, before, after, hsplit, ?_⟩
  intro a ha
  simpa [isAddress_iff] using hbefore a ha

theorem Admissible.not_refused (h : Admissible accounts) {e : Error} : ¬ Refused accounts e := by
  intro hrefused
  cases hrefused with
  | tooFew hfew => exact Nat.not_lt_of_le h.enough hfew
  | malformed _ hsplit _ hbad =>
      apply hbad
      apply h.addresses
      simp [hsplit]
  | alike _ _ halike =>
      rcases h.distinct with ⟨a, ha, b, hb, hne⟩
      exact hne (halike a ha b hb)

/-- There is one reason only. -/
theorem Refused.unique {e e' : Error} (h : Refused accounts e) (h' : Refused accounts e') :
    e = e' := by
  cases h with
  | tooFew hfew =>
      cases h' with
      | tooFew => rfl
      | malformed henough => exact absurd hfew (Nat.not_lt_of_le henough)
      | alike henough => exact absurd hfew (Nat.not_lt_of_le henough)
  | malformed henough hsplit hbefore hbad =>
      cases h' with
      | tooFew hfew => exact absurd hfew (Nat.not_lt_of_le henough)
      | malformed _ hsplit' hbefore' hbad' =>
          -- Both are the first one that is malformed.
          have hfirst := find?_malformed_eq_some hsplit hbefore hbad
          have hfirst' := find?_malformed_eq_some hsplit' hbefore' hbad'
          rw [Option.some.inj (hfirst.symm.trans hfirst')]
      | alike _ haddresses => exact absurd (haddresses _ (by simp [hsplit])) hbad
  | alike henough haddresses =>
      cases h' with
      | tooFew hfew => exact absurd hfew (Nat.not_lt_of_le henough)
      | malformed _ hsplit _ hbad => exact absurd (haddresses _ (by simp [hsplit])) hbad
      | alike => rfl

namespace Pool

/-- Accounts that are the same as the first one are all the same. -/
theorem all_same_iff (hpos : 0 < accounts.length) :
    (accounts.all fun a => a.same accounts[0]) = true ↔
      ∀ a ∈ accounts, ∀ b ∈ accounts, a.identity = b.identity := by
  simp only [List.all_eq_true, Holder.same_iff]
  constructor
  · intro hfirst a ha b hb
    exact (hfirst a ha).trans (hfirst b hb).symm
  · intro hall a ha
    exact hall a ha _ (List.getElem_mem _)

theorem find?_malformed_eq_none_iff :
    (accounts.find? fun a => !isAddress a.address) = none ↔
      ∀ a ∈ accounts, IsAddress a.address := by
  simp [isAddress_iff]

/-- Accounts make a pool that keeps them as they are, or are refused with the error. -/
theorem verdict (accounts : List Holder) :
    (∃ p, ofAccounts accounts = .ok p ∧ p.accounts = accounts ∧ Admissible accounts) ∨
      ∃ e, ofAccounts accounts = .error e ∧ Refused accounts e := by
  unfold ofAccounts
  split
  · rename_i henough
    split
    · rename_i bad hbad
      right
      rcases List.find?_eq_some_iff_append.1 hbad with ⟨hinvalid, before, after, hsplit, hbefore⟩
      refine ⟨_, rfl, .malformed henough hsplit ?_ ?_⟩
      · intro a ha
        exact isAddress_iff.1 (by simpa using hbefore a ha)
      · rw [← isAddress_iff]
        simpa using hinvalid
    · rename_i hvalid
      have haddresses := find?_malformed_eq_none_iff.1 hvalid
      have hpos : 0 < accounts.length := Nat.lt_of_lt_of_le (by decide) henough
      by_cases hsame : (accounts.all fun a => a.same accounts[0]) = true
      · right
        exact ⟨_, dif_pos hsame, .alike henough haddresses ((all_same_iff hpos).1 hsame)⟩
      · left
        refine ⟨_, dif_neg hsame, rfl, henough, haddresses, ?_⟩
        simpa only [all_same_iff, not_forall, exists_prop] using hsame
  · rename_i hfew
    right
    exact ⟨_, rfl, .tooFew (Nat.lt_of_not_le hfew)⟩

theorem accounts_of_ok {p : Pool} (h : ofAccounts accounts = .ok p) : p.accounts = accounts := by
  rcases verdict accounts with ⟨p', hok, haccounts, -⟩ | ⟨e, herror, -⟩
  · cases h.symm.trans hok
    exact haccounts
  · cases h.symm.trans herror

theorem exists_ok_iff : (∃ p, ofAccounts accounts = .ok p) ↔ Admissible accounts := by
  constructor
  · rintro ⟨p, hp⟩
    rcases verdict accounts with ⟨-, -, -, hadmissible⟩ | ⟨e, herror, -⟩
    · exact hadmissible
    · cases hp.symm.trans herror
  · intro hadmissible
    rcases verdict accounts with ⟨p, hok, -⟩ | ⟨e, -, hrefused⟩
    · exact ⟨p, hok⟩
    · exact absurd hrefused hadmissible.not_refused

theorem eq_error_iff {e : Error} : ofAccounts accounts = .error e ↔ Refused accounts e := by
  constructor
  · intro h
    rcases verdict accounts with ⟨p, hok, -⟩ | ⟨e', herror, hrefused⟩
    · cases h.symm.trans hok
    · cases h.symm.trans herror
      exact hrefused
  · intro h
    rcases verdict accounts with ⟨-, -, -, hadmissible⟩ | ⟨e', herror, hrefused⟩
    · exact absurd h hadmissible.not_refused
    · rw [herror, h.unique hrefused]

end Pool
end Account
end TxWorkload
