import TxWorkload.Proofs.Random.Steady
import TxWorkload.Proofs.Random.Yield
import TxWorkload.Transaction.Generator

/-!
# Well-formed — what every generated transaction looks like

Whatever the words, a transaction that a generator gives is of a kind of its table, with an amount
from a range of that kind, between two accounts of its pool with different addresses, at a price of
gas from the common range, and with the gas and the payload of its kind.
-/

namespace TxWorkload
namespace Transaction

open TxWorkload.Random (pick sampled toNat_of_sampled pick_eq_first yields_pick)
open TxWorkload.Random.Draw (Yields yields_pure yields_first yields_bytes yields_trivial first)
open TxWorkload.Account (Holder Pool)

/-- What holds of every transaction from a pool and a table. -/
structure WellFormed (pool : Pool) (patterns : List Pattern) (t : Transaction) (kind : Kind) :
    Prop where
  value : ∃ p ∈ patterns, p.kind = kind ∧ p.least ≤ t.value ∧ t.value ≤ p.most
  accounts : ∃ sender ∈ pool.accounts, ∃ recipient ∈ pool.accounts,
    t.sender = sender.address ∧ t.recipient = recipient.address ∧
      Text.sameIgnoringCase t.recipient t.sender = false
  gasPrice : 1000000000 ≤ t.gasPrice ∧ t.gasPrice ≤ 50000000000
  gas : if kind = .contractCall then 50000 ≤ t.gas ∧ t.gas ≤ 200000 ∧ t.payload.length ≤ 100
    else t.gas = 21000 ∧ t.payload = []

/-! ## The parts of a transaction -/

theorem mem_of_selected {pool : Pool} {word : UInt64} {a : Holder}
    (h : pool.selected word = some a) : a ∈ pool.accounts := by
  rcases Option.map_eq_some_iff.1 h with ⟨i, -, rfl⟩
  exact List.getElem_mem _

/-- The two accounts of a pair are members with different addresses. -/
theorem yields_pair (pool : Pool) :
    pool.pair.Yields fun pair =>
      pair.1 ∈ pool.accounts ∧ pair.2 ∈ pool.accounts ∧ pair.2.same pair.1 = false := by
  have hsender : (first pool.selected).Yields (· ∈ pool.accounts) :=
    yields_first fun _ _ => mem_of_selected
  refine hsender.bind fun sender hsender => ?_
  have hrecipient : (first (pool.recipient sender)).Yields fun a =>
      a ∈ pool.accounts ∧ a.same sender = false := by
    apply yields_first
    intro word a ha
    rcases Option.filter_eq_some_iff.1 ha with ⟨hselected, hdiffers⟩
    exact ⟨mem_of_selected hselected, by simpa using hdiffers⟩
  exact hrecipient.bind fun recipient hrecipient => yields_pure ⟨hsender, hrecipient⟩

/-- The gas and the payload are those of the kind. -/
theorem yields_gasAndPayload (kind : Kind) :
    (Generator.gasAndPayload kind).Yields fun drawn =>
      if kind = .contractCall then 50000 ≤ drawn.1 ∧ drawn.1 ≤ 200000 ∧ drawn.2.length ≤ 100
      else drawn.1 = 21000 ∧ drawn.2 = [] := by
  by_cases hkind : kind = .contractCall
  · subst hkind
    refine (yields_pick _ _).bind fun gas hgas => ?_
    refine (yields_trivial (Random.index (longestPayload + 1))).bind fun size _ => ?_
    refine (yields_bytes size).bind fun payload hpayload => yields_pure ?_
    have hsize : size.val ≤ longestPayload := Nat.le_of_lt_succ size.isLt
    exact ⟨hgas.1, hgas.2, Nat.le_trans hpayload hsize⟩
  · have hnone : kind.isContractCall = false := by
      simpa [Kind.isContractCall] using hkind
    simp only [Generator.gasAndPayload, hnone, Bool.false_eq_true, if_false, hkind]
    exact yields_pure ⟨rfl, rfl⟩

/-! ## Transactions -/

theorem yields_generate (g : Generator) :
    g.generate.Yields fun drawn => WellFormed g.pool g.patterns drawn.1 drawn.2 := by
  refine (yields_trivial g.choose).bind fun i _ => ?_
  refine (yields_pair g.pool).bind fun pair ⟨hsender, hrecipient, hdiffer⟩ => ?_
  refine (yields_pick _ _).bind fun value hvalue => ?_
  refine (yields_pick _ _).bind fun gasPrice hgasPrice => ?_
  refine (yields_gasAndPayload _).bind fun drawn hdrawn => yields_pure ?_
  exact
    { value := ⟨g.patterns[i], List.getElem_mem _, rfl, hvalue⟩
      accounts := ⟨pair.1, hsender, pair.2, hrecipient, rfl, rfl, hdiffer⟩
      gasPrice := hgasPrice
      gas := hdrawn }

theorem parts_of_make {pool : Pool} {patterns : List Pattern} {g : Generator}
    (h : Generator.make pool patterns = .ok g) : g.pool = pool ∧ g.patterns = patterns := by
  unfold Generator.make at h
  split at h
  · cases h
  · split at h
    · cases h
      exact ⟨rfl, rfl⟩
    · cases h

/-- Every transaction of an accepted generator is well-formed, for every supply of words. No range
of its table is empty, and ranges are drawn in the arithmetic of machine words, of which nothing
wraps around: what a word picks is the exact sum, and it lies in the range. -/
theorem generate_wellFormed (pool : Pool) (patterns : List Pattern) (g : Generator)
    (hg : Generator.make pool patterns = .ok g) :
    (∀ supply t kind rest, g.generate supply = .value (t, kind) rest →
      WellFormed pool patterns t kind) ∧
    (∀ p ∈ patterns, p.least ≤ p.most) ∧
    ∀ least most : UInt64, least ≤ most → pick least most = first (sampled least most) ∧
      ∀ word value, sampled least most word = some value →
        value.toNat = least.toNat +
            word.toNat * (most.toNat - least.toNat + 1) / UInt64.size ∧
          value.toNat ≤ most.toNat := by
  rcases parts_of_make hg with ⟨rfl, rfl⟩
  refine ⟨?_, fun p hp => Pattern.least_le_most g.valid hp, ?_⟩
  · intro supply t kind rest h
    exact yields_generate g supply (t, kind) rest h
  · intro least most hrange
    exact ⟨pick_eq_first hrange, fun word value => toNat_of_sampled hrange⟩

/-- A contract call with three bytes of payload, whose amount is the greatest number of the range of
all words. -/
theorem generate_wellFormed_greatest :
    let patterns : List Pattern :=
      [⟨.transfer, 1, 7, 7⟩, ⟨.contractCall, 3, 0, 18446744073709551615⟩]
    let g : Generator := ⟨.development, patterns, by decide, by decide⟩
    ∃ t, g.generate [0xBFFFFFFF, 0, 0x8000000000000000, 0xFFFFFFFFFFFFFFFF, 0, 0x8000000000000000,
        600000000000000000, 12345, 6] = .value (t, .contractCall) [6] ∧
      t.value = 18446744073709551615 ∧ t.payload = [57, 48, 0] ∧
      WellFormed .development patterns t .contractCall := by
  intro patterns g
  have hmake : Generator.make .development patterns = .ok g := rfl
  rcases generate_wellFormed .development patterns g hmake with ⟨hgenerate, -, -⟩
  let t : Transaction := ⟨"0x742A4D1A0Ac05A73A48F10C2E2d6b0E3f1b2e3F4",
    "0x8B3A4D1A0Ac05A73A48F10C2E2d6b0E3f1b2e3F5", 18446744073709551615, 125000, 1000000000,
    [57, 48, 0]⟩
  have hdrawn : g.generate [0xBFFFFFFF, 0, 0x8000000000000000, 0xFFFFFFFFFFFFFFFF, 0,
      0x8000000000000000, 600000000000000000, 12345, 6] = .value (t, .contractCall) [6] := by
    decide +kernel
  exact ⟨t, hdrawn, rfl, rfl, hgenerate _ t .contractCall [6] hdrawn⟩

end Transaction
end TxWorkload
