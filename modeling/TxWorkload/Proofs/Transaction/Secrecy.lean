import TxWorkload.Proofs.Random.Agreement
import TxWorkload.Proofs.Transaction.WellFormed

/-!
# Secrecy — no draw tells the private keys apart

Whether a word is accepted and which account it picks depends on the addresses of a pool alone. So
pools with the same addresses give pairs with the same addresses from the same words, and whatever
is asked of two generators over them is answered alike.
-/

namespace TxWorkload

/-! ## Pools -/

namespace Account

open TxWorkload.Random (Draw below)

/-- The same address, with whatever keys. -/
def Holder.Alike (a b : Holder) : Prop :=
  a.address = b.address

theorem Holder.Alike.same_eq {a b c d : Holder} (hac : a.Alike c) (hbd : b.Alike d) :
    a.same b = c.same d := by
  rw [same, same, show a.address = c.address from hac, show b.address = d.address from hbd]

namespace Pool

/-- The addresses of the accounts. -/
def addresses (p : Pool) : List String :=
  p.accounts.map Holder.address

variable {p q : Pool}

theorem length_eq_of_addresses (h : p.addresses = q.addresses) :
    p.accounts.length = q.accounts.length := by
  simpa [addresses] using congrArg List.length h

theorem alike_of_addresses (h : p.addresses = q.addresses) {i j : Nat} (hij : i = j)
    (hi : i < p.accounts.length) (hj : j < q.accounts.length) :
    p.accounts[i].Alike q.accounts[j] := by
  subst hij
  have hget := congrArg (fun addresses => addresses[i]?) h
  simpa [addresses, Holder.Alike, hi, hj] using hget

theorem rel_below {m n : Nat} (h : m = n) (word : UInt64) :
    Option.Rel (fun (i : Fin m) (j : Fin n) => i.val = j.val) (below m word) (below n word) := by
  subst h
  cases below m word with
  | none => exact .none
  | some i => exact .some rfl

/-- A word picks the account at the same position of both pools. -/
theorem rel_selected (h : p.addresses = q.addresses) (word : UInt64) :
    Option.Rel Holder.Alike (p.selected word) (q.selected word) := by
  have hpositions := rel_below (length_eq_of_addresses h) word
  unfold selected
  generalize below p.accounts.length word = x, below q.accounts.length word = y at hpositions
  cases hpositions with
  | none => exact .none
  | some hij => exact .some (alike_of_addresses h hij _ _)

/-- Whether the recipient has to be drawn again does not depend on the keys. -/
theorem rel_recipient (h : p.addresses = q.addresses) {sender sender' : Holder}
    (hsender : sender.Alike sender') (word : UInt64) :
    Option.Rel Holder.Alike (p.recipient sender word) (q.recipient sender' word) := by
  have hselected := rel_selected h word
  unfold recipient
  generalize p.selected word = x, q.selected word = y at hselected
  cases hselected with
  | none => exact .none
  | @some a b hab =>
      rw [Option.filter_some, Option.filter_some, hab.same_eq hsender]
      cases b.same sender' with
      | true => exact .none
      | false => exact .some hab

theorem agree_pair (h : p.addresses = q.addresses) :
    p.pair.Agree (fun a b => a.1.Alike b.1 ∧ a.2.Alike b.2) q.pair := by
  refine (Draw.agree_first (rel_selected h)).bind fun sender sender' hsender => ?_
  refine (Draw.agree_first (rel_recipient h hsender)).bind fun receiver receiver' hreceiver => ?_
  exact Draw.agree_pure ⟨hsender, hreceiver⟩

end Pool
end Account

/-! ## Generators -/

namespace Transaction
namespace Generator

open TxWorkload.Account (Pool)
open TxWorkload.Random (Draw)
open TxWorkload.Random.Draw (agree_refl agree_pure)

/-- The same table over another pool. -/
def withPool (g : Generator) (q : Pool) : Generator :=
  { g with pool := q }

theorem make_withPool {p q : Pool} {patterns : List Pattern} {g : Generator}
    (h : make p patterns = .ok g) : make q patterns = .ok (g.withPool q) := by
  rcases parts_of_make h with ⟨rfl, rfl⟩
  unfold make
  split
  · rename_i flaw
    cases flaw.symm.trans g.valid
  · rw [dif_pos g.bounded]
    rfl

variable {g : Generator} {q : Pool}

/-- The transaction holds two addresses, and no key. -/
theorem generate_withPool (h : g.pool.addresses = q.addresses) :
    (g.withPool q).generate = g.generate := by
  refine (Draw.Agree.eq ?_).symm
  refine (agree_refl g.choose).bind fun i j hij => ?_
  subst hij
  refine (Pool.agree_pair h).bind fun pair pair' hpair => ?_
  refine (agree_refl _).bind fun value value' hvalue => ?_
  refine (agree_refl _).bind fun price price' hprice => ?_
  refine (agree_refl _).bind fun drawn drawn' hdrawn => ?_
  subst hvalue hprice hdrawn
  refine agree_pure ?_
  rw [hpair.1, hpair.2]
  rfl

/-! ## Inquiries -/

/-- What a generator is asked for: a pattern, a pair of accounts, or a transaction. -/
inductive Inquiry
  | pattern
  | pair
  | transaction
  deriving DecidableEq, Repr

/-- What is told in return. Of the accounts it is the addresses. -/
inductive Finding
  | pattern (p : Pattern)
  | pair (sender recipient : String)
  | transaction (t : Transaction) (kind : Kind)
  deriving DecidableEq, Repr

/-- Answer one inquiry. -/
def find (g : Generator) : Inquiry → Draw Finding
  | .pattern => do
      let i ← g.choose
      return .pattern (g.patterns.get i)
  | .pair => do
      let drawn ← g.pool.pair
      return .pair drawn.1.address drawn.2.address
  | .transaction => do
      let drawn ← g.generate
      return .transaction drawn.1 drawn.2

/-- Answer inquiries in order, each from the words that the last one left. -/
def findAll (g : Generator) : List Inquiry → Draw (List Finding)
  | [] => pure []
  | inquiry :: more => do
      let finding ← g.find inquiry
      let findings ← g.findAll more
      return finding :: findings

theorem find_withPool (h : g.pool.addresses = q.addresses) (inquiry : Inquiry) :
    (g.withPool q).find inquiry = g.find inquiry := by
  cases inquiry with
  | pattern => rfl
  | pair =>
      refine (Draw.Agree.eq ?_).symm
      refine (Pool.agree_pair h).bind fun pair pair' hpair => agree_pure ?_
      rw [hpair.1, hpair.2]
  | transaction =>
      simp only [find, generate_withPool h]

/-- Nothing that is found in any sequence of inquiries depends on the keys. -/
theorem findAll_withPool (h : g.pool.addresses = q.addresses) (inquiries : List Inquiry) :
    (g.withPool q).findAll inquiries = g.findAll inquiries := by
  induction inquiries with
  | nil => rfl
  | cons inquiry more ih => simp only [findAll, find_withPool h, ih]

end Generator
end Transaction
end TxWorkload
