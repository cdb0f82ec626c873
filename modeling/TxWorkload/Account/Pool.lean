import TxWorkload.Account.Key
import TxWorkload.Random.Range

/-!
# Pool — accounts that send to one another

A pool holds at least two accounts with well-formed addresses, of which two differ in more than
the case of letters. So for every sender there is a recipient, and the draw of a pair can end.
-/

namespace TxWorkload
namespace Account

/-! ## Accounts -/

/-- An address and the private key that controls it. -/
structure Holder where
  address : String
  privateKey : String
  deriving DecidableEq, Repr

/-- Whether a text is `0x` and 40 hexadecimal digits. -/
def isAddress (s : String) : Bool :=
  match s.toList with
  | '0' :: 'x' :: digits => digits.length == 40 && Key.allDigits digits
  | _ => false

/-- Whether two accounts have the same address, written in whatever case. -/
def Holder.same (a b : Holder) : Bool :=
  Text.sameIgnoringCase a.address b.address

/-! ## Pools -/

/-- The least number of accounts in a pool. -/
def leastAccounts : Nat := 2

/-- Accounts among which every sender has a recipient. -/
structure Pool where
  accounts : List Holder
  enough : leastAccounts ≤ accounts.length
  valid : ∀ a ∈ accounts, isAddress a.address = true
  distinct : ∃ a ∈ accounts, ∃ b ∈ accounts, b.same a = false

namespace Pool

/-- The pool of given accounts. -/
def ofAccounts (accounts : List Holder) : Except Error Pool :=
  if enough : leastAccounts ≤ accounts.length then
    match bad : accounts.find? fun a => !isAddress a.address with
    | some a => .error (.invalidAddress a.address)
    | none =>
        have nonempty : 0 < accounts.length := Nat.lt_of_lt_of_le (by decide) enough
        let first := accounts[0]
        if same : accounts.all fun a => a.same first then
          .error (.notEnoughAccounts leastAccounts 1)
        else
          .ok
            { accounts, enough
              valid := by simpa using bad
              distinct := by
                simp only [Bool.not_eq_true, List.all_eq_false] at same
                obtain ⟨b, hb, h⟩ := same
                exact ⟨first, List.getElem_mem _, b, hb, by simpa using h⟩ }
  else .error (.notEnoughAccounts leastAccounts accounts.length)

/-- The account of a private key. -/
def holderOf (key : String) : Except Error Holder := do
  let privateKey ← Key.normalize key
  let address ← Key.address privateKey
  return ⟨address, privateKey⟩

/-- The pool of the accounts of private keys. -/
def ofPrivateKeys (keys : List String) : Except Error Pool := do
  let accounts ← keys.mapM holderOf
  ofAccounts accounts

/-- The accounts of the development network. -/
def development : Pool where
  accounts :=
    [⟨"0x742A4D1A0Ac05A73A48F10C2E2d6b0E3f1b2e3F4",
      "0x0123456789abcdef0123456789abcdef0123456789abcdef0123456789abcdef"⟩,
     ⟨"0x8B3A4D1A0Ac05A73A48F10C2E2d6b0E3f1b2e3F5",
      "0x1123456789abcdef0123456789abcdef0123456789abcdef0123456789abcdef"⟩,
     ⟨"0x9C4A4D1A0Ac05A73A48F10C2E2d6b0E3f1b2e3F6",
      "0x2123456789abcdef0123456789abcdef0123456789abcdef0123456789abcdef"⟩]
  enough := by decide
  valid := by decide
  distinct := ⟨_, .head _, _, .tail _ (.head _), by decide⟩

/-- The number of accounts. -/
def size (p : Pool) : Nat := p.accounts.length

/-! ## Pairs -/

/-- The account that a word picks, if the word is accepted. -/
def selected (p : Pool) (word : UInt64) : Option Holder :=
  (Random.below p.accounts.length word).map fun i => p.accounts[i]

/-- The account that a word picks, if it is accepted and has another address than the sender. -/
def recipient (p : Pool) (sender : Holder) (word : UInt64) : Option Holder :=
  (p.selected word).filter fun a => !a.same sender

/-- A sender and a recipient with different addresses; the recipient is drawn until it differs. -/
def pair (p : Pool) : Random.Draw (Holder × Holder) := do
  let sender ← Random.Draw.first p.selected
  let receiver ← Random.Draw.first (p.recipient sender)
  return (sender, receiver)

end Pool
end Account
end TxWorkload
