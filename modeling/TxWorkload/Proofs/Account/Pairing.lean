import TxWorkload.Proofs.Account.Admission
import TxWorkload.Proofs.Random.Share
import TxWorkload.Proofs.Random.Yield

/-!
# Pairing — every sender finds a recipient

Accepted words pick accounts one after another, each account by the same number of words. The first
account that is picked sends, and the first one after it that is another account receives. In a pool
there is another account for every sender, so words can always follow on which the draw of a pair
ends.
-/

namespace TxWorkload
namespace Account
namespace Pool

open TxWorkload.Random (Draw Supply below leadingZeros)
open TxWorkload.Random.Draw (first)

section

variable (p : Pool)

/-! ## Accounts in the order in which they are picked -/

/-- The positions that the words of a supply pick, in order. -/
def drawn (supply : Supply) : List (Fin p.accounts.length) :=
  supply.filterMap (below p.accounts.length)

/-- Whether two positions hold different accounts. -/
def apart (i j : Fin p.accounts.length) : Bool :=
  decide ((p.accounts.get i).identity ≠ (p.accounts.get j).identity)

/-- The position that a word picks, if it is accepted and holds another account than the sender. -/
def otherThan (i : Fin p.accounts.length) (word : UInt64) : Option (Fin p.accounts.length) :=
  (below p.accounts.length word).filter (p.apart i)

theorem selected_eq (word : UInt64) :
    p.selected word = (below p.accounts.length word).map p.accounts.get := rfl

theorem first_selected :
    first p.selected = do return p.accounts.get (← first (below p.accounts.length)) :=
  (Random.first_map (below p.accounts.length) p.accounts.get).symm

theorem first_recipient (i : Fin p.accounts.length) :
    first (p.recipient (p.accounts.get i)) = do return p.accounts.get (← first (p.otherThan i)) := by
  have hapart : (fun a : Holder => !a.same (p.accounts.get i)) ∘ p.accounts.get = p.apart i := by
    funext j
    rw [Function.comp_apply, apart, Bool.eq_iff_iff, Bool.not_eq_true', Holder.same_eq_false_iff,
      decide_eq_true_iff]
    exact ne_comm
  have hrecipient : p.recipient (p.accounts.get i) = fun word =>
      (p.otherThan i word).map p.accounts.get := by
    funext word
    rw [recipient, selected_eq, Option.filter_map, hapart, otherThan]
  rw [hrecipient]
  exact (Random.first_map (p.otherThan i) p.accounts.get).symm

/-- The pair that is drawn: the account that is picked first, and the first one picked after it that
is another account. -/
theorem exists_pair_iff {supply : Supply} {sender receiver : Holder} :
    (∃ rest, p.pair supply = .value (sender, receiver) rest) ↔
      ∃ i later j, p.drawn supply = i :: later ∧ later.find? (p.apart i) = some j ∧
        sender = p.accounts.get i ∧ receiver = p.accounts.get j := by
  -- The recipient is found among the positions that the words left over pick.
  have hfind (i : Fin p.accounts.length) (left : Supply) (j : Fin p.accounts.length) :
      (∃ rest, first (p.otherThan i) left = .value j rest) ↔
        (p.drawn left).find? (p.apart i) = some j := by
    rw [Draw.exists_first_iff, ← List.head?_filter, drawn, List.filter_filterMap]
    rfl
  constructor
  · rintro ⟨rest, hpair⟩
    rw [pair, first_selected] at hpair
    rcases Draw.bind_eq_value_iff.1 hpair with ⟨a, left, hsender, hrest⟩
    rcases Draw.bind_eq_value_iff.1 hsender with ⟨i, left', hi, ha⟩
    cases ha
    rw [first_recipient] at hrest
    rcases Draw.bind_eq_value_iff.1 hrest with ⟨b, rest', hreceiver, hb⟩
    cases hb
    rcases Draw.bind_eq_value_iff.1 hreceiver with ⟨j, rest'', hj, hb⟩
    cases hb
    exact ⟨i, p.drawn left, j, Draw.filterMap_of_first hi, (hfind i left j).1 ⟨_, hj⟩, rfl, rfl⟩
  · rintro ⟨i, later, j, hdrawn, hlater, rfl, rfl⟩
    have hhead : (p.drawn supply).head? = some i := by rw [hdrawn, List.head?_cons]
    rcases Draw.exists_first_iff.2 hhead with ⟨left, hi⟩
    have hleft : later = p.drawn left := by
      have hcons := Draw.filterMap_of_first hi
      exact (List.cons.inj (hdrawn.symm.trans hcons)).2
    rw [hleft, ← hfind] at hlater
    rcases hlater with ⟨rest, hj⟩
    refine ⟨rest, ?_⟩
    rw [pair, first_selected, Draw.bind_eq_value_iff]
    refine ⟨_, left, Draw.bind_eq_value_iff.2 ⟨i, left, hi, rfl⟩, ?_⟩
    rw [first_recipient, Draw.bind_eq_value_iff]
    exact ⟨_, rest, Draw.bind_eq_value_iff.2 ⟨j, rest, hj, rfl⟩, rfl⟩

/-! ## Words to come -/

/-- Every sender has a recipient. -/
theorem exists_apart (i : Fin p.accounts.length) : ∃ j, p.apart i j = true := by
  rcases p.distinct with ⟨a, ha, b, hb, hne⟩
  rw [Holder.same_eq_false_iff] at hne
  rcases List.get_of_mem ha with ⟨j, rfl⟩
  rcases List.get_of_mem hb with ⟨k, rfl⟩
  -- The sender differs from one of two accounts that differ.
  by_cases heq : (p.accounts.get i).identity = (p.accounts.get j).identity
  · refine ⟨k, ?_⟩
    rw [apart, decide_eq_true_iff, heq]
    exact hne.symm
  · exact ⟨j, decide_eq_true heq⟩

theorem drawn_append (supply more : Supply) :
    p.drawn (supply ++ more) = p.drawn supply ++ p.drawn more :=
  List.filterMap_append

variable (hfits : p.accounts.length < UInt64.size)
include hfits

theorem exists_word (i : Fin p.accounts.length) : ∃ word, p.drawn [word] = [i] := by
  have hpos : 0 < {word | below p.accounts.length word = some i}.ncard := by
    rw [Random.ncard_below hfits]
    exact Nat.two_pow_pos _
  rcases Set.nonempty_of_ncard_ne_zero (Nat.ne_of_gt hpos) with ⟨word, hword⟩
  exact ⟨word, List.filterMap_cons_some hword⟩

/-- Some words can follow on which the draw of a pair ends. -/
theorem exists_extension (supply : Supply) :
    ∃ more pair rest, p.pair (supply ++ more) = .value pair rest := by
  have hpos : 0 < p.accounts.length := Nat.lt_of_lt_of_le (by decide) p.enough
  rcases p.exists_word hfits ⟨0, hpos⟩ with ⟨word, hword⟩
  cases hdrawn : p.drawn (supply ++ [word]) with
  | nil =>
      rw [drawn_append, hword] at hdrawn
      exact absurd hdrawn (by simp)
  | cons i later =>
      rcases p.exists_apart i with ⟨j, hj⟩
      rcases p.exists_word hfits j with ⟨last, hlast⟩
      have hall : p.drawn (supply ++ [word, last]) = i :: (later ++ [j]) := by
        calc p.drawn (supply ++ [word, last])
            = p.drawn (supply ++ [word] ++ [last]) := by rw [List.append_assoc]; rfl
          _ = p.drawn (supply ++ [word]) ++ p.drawn [last] := p.drawn_append _ _
          _ = i :: (later ++ [j]) := by rw [hdrawn, hlast, List.cons_append]
      have hsome : ((later ++ [j]).find? (p.apart i)).isSome := by
        rw [List.find?_isSome]
        exact ⟨j, by simp, hj⟩
      rcases Option.isSome_iff_exists.1 hsome with ⟨k, hk⟩
      rcases p.exists_pair_iff.2 ⟨i, _, k, hall, hk, rfl, rfl⟩ with ⟨rest, hpair⟩
      exact ⟨[word, last], _, rest, hpair⟩

end

/-- A pool is what accounts make if there are two of them at least, their addresses are well-formed
and two addresses differ; otherwise they are refused for the first of these that fails. Draws from
every pool can end, where the number of accounts is a machine word. The words pick all positions
equally often, for every sender there is a recipient, and the pair that is drawn is the account that
is picked first and the first one after it that is another account. -/
theorem ofAccounts_suits_pair (accounts : List Holder) :
    (∀ p, ofAccounts accounts = .ok p → p.accounts = accounts) ∧
    ((∃ p, ofAccounts accounts = .ok p) ↔ Admissible accounts) ∧
    (∀ e, ofAccounts accounts = .error e ↔ Refused accounts e) ∧
    ∀ p, ofAccounts accounts = .ok p → p.accounts.length < UInt64.size →
      (∀ i, {word | below p.accounts.length word = some i}.ncard =
        2 ^ (leadingZeros (.ofNat p.accounts.length)).toNat) ∧
      (∀ i : Fin p.accounts.length, ∃ j : Fin p.accounts.length,
        (p.accounts.get i).identity ≠ (p.accounts.get j).identity) ∧
      (∀ supply sender receiver, (∃ rest, p.pair supply = .value (sender, receiver) rest) ↔
        ∃ i later j, p.drawn supply = i :: later ∧
          later.find? (fun k => (p.accounts.get i).identity ≠ (p.accounts.get k).identity) = some j ∧
          sender = p.accounts.get i ∧ receiver = p.accounts.get j) ∧
      ∀ supply, ∃ more pair rest, p.pair (supply ++ more) = .value pair rest := by
  refine ⟨fun p => accounts_of_ok, exists_ok_iff, fun e => eq_error_iff, ?_⟩
  intro p _ hfits
  refine ⟨Random.ncard_below hfits, ?_, ?_, p.exists_extension hfits⟩
  · intro i
    rcases p.exists_apart i with ⟨j, hj⟩
    exact ⟨j, of_decide_eq_true hj⟩
  · intro supply sender receiver
    exact p.exists_pair_iff

/-- Two ways to write one address, and another address. The second account is picked after the
first one, but it is the same account, so the third one receives. -/
theorem ofAccounts_suits_pair_mixedCase :
    let accounts : List Holder :=
      [⟨"0x00000000000000000000000000000000000000AA", "first"⟩,
       ⟨"0x00000000000000000000000000000000000000aa", "second"⟩,
       ⟨"0x00000000000000000000000000000000000000bb", "third"⟩]
    ∃ p, ofAccounts accounts = .ok p ∧
      (∀ i, {word | below p.accounts.length word = some i}.ncard = 2 ^ 62) ∧
      (∃ rest, p.pair [0, 6148914691236517206, 12297829382473034411, 5] =
        .value (accounts[0], accounts[2]) rest) ∧
      ∀ supply, ∃ more pair rest, p.pair (supply ++ more) = .value pair rest := by
  intro accounts
  rcases ofAccounts_suits_pair accounts with ⟨haccounts, hadmissible, -, hpairs⟩
  have hall : ∀ a ∈ accounts, isAddress a.address = true := by decide
  rcases hadmissible.2 ⟨by decide, fun a ha => isAddress_iff.1 (hall a ha), by decide⟩ with ⟨p, hp⟩
  have hlist := haccounts p hp
  rcases p with ⟨list, enough, valid, distinct⟩
  subst hlist
  have hfits : 3 < UInt64.size := by decide
  have hzeros : (leadingZeros 3).toNat = 62 := by decide
  have hdrawn : [0, 6148914691236517206, 12297829382473034411, 5].filterMap (below 3) =
      [0, 1, 2, 0] := by decide
  have hlater : [1, 2, 0].find? (fun k : Fin 3 => accounts[0].identity ≠ accounts[k].identity) =
      some 2 := by decide
  rcases hpairs _ hp hfits with ⟨hshare, -, houtcome, hextends⟩
  refine ⟨_, hp, ?_, (houtcome _ _ _).2 ⟨_, _, _, hdrawn, hlater, rfl, rfl⟩, hextends⟩
  intro i
  rw [hshare i, ← hzeros]
  rfl

end Pool
end Account
end TxWorkload
