import TxWorkload.Proofs.Activity.Poll
import TxWorkload.Proofs.Hex.Reading

/-!
# Height — which texts a poll takes for a height

A poll whose replies come counts the height if the text that it was given can be read as a quantity,
and fails without counting anything if it cannot.
-/

namespace TxWorkload
namespace Activity

open Routine
open Routine (Host World)
open Text (Numeral PlusNumeral)

variable {n : Network} {host : Host activities} {w : World activities}

/-- Whether all replies to a poll come, and the one about the height has the given text. -/
structure Network.Tells (n : Network) (host : Host activities) (w : World activities)
    (raw : String) : Prop where
  validator : ∃ d, (n.validatorReply host w.past).delay = some d
  sequencer : ∃ d, (n.sequencerReply host w.past).delay = some d
  answer : ∃ d, (n.heightReply host w.past).delay = some d
  result : (n.heightReply host w.past).answer.bind (·.result) = some (.text raw)

theorem exists_polled (hvalidator : ∃ d, (n.validatorReply host w.past).delay = some d)
    (hsequencer : ∃ d, (n.sequencerReply host w.past).delay = some d)
    (hanswer : ∃ d, (n.heightReply host w.past).delay = some d) :
    ∃ outcome w', (poll n).ComesTo host w outcome w' ∧
      outcome = outcomeOf (n.validatorReply host w.past).answer
        (n.sequencerReply host w.past).answer (n.heightReply host w.past).answer ∧
      w'.counters = settled w.counters outcome := by
  rcases exists_comesTo_poll.2 ⟨hvalidator, hsequencer, hanswer⟩ with ⟨outcome, w', hpoll⟩
  have hpolled := polled_of_comesTo hpoll
  exact ⟨outcome, w', hpoll, hpolled.outcome_eq, hpolled.counters⟩

/-- A poll that is told a quantity reports its number as the height, and observes it. -/
theorem poll_of_quantity {raw : String} {word : UInt64} (htells : n.Tells host w raw)
    (hquantity : Hex.quantity? raw = some word) :
    ∃ report w', (poll n).ComesTo host w (.ok report) w' ∧ report.height = word ∧
      w'.counters = w.counters.observing word := by
  rcases exists_polled htells.validator htells.sequencer htells.answer with
    ⟨outcome, w', hpoll, houtcome, hcounters⟩
  -- Whether the two sides are alive goes into the report; whether there is one, the text decides.
  rw [outcomeOf, height, htells.result] at houtcome
  simp only [hquantity] at houtcome
  subst houtcome
  exact ⟨_, w', hpoll, rfl, hcounters⟩

/-- A poll that is told anything else fails, and counts nothing. -/
theorem poll_of_no_quantity {raw : String} (htells : n.Tells host w raw)
    (hquantity : Hex.quantity? raw = none) :
    ∃ w', (poll n).ComesTo host w
        (.error (.rpc s!"unparsable block number {Text.quoted raw}")) w' ∧
      w'.counters = w.counters := by
  rcases exists_polled htells.validator htells.sequencer htells.answer with
    ⟨outcome, w', hpoll, houtcome, hcounters⟩
  rw [outcomeOf, height, htells.result] at houtcome
  simp only [hquantity] at houtcome
  subst houtcome
  exact ⟨w', hpoll, hcounters⟩

/-- A text is read as a quantity if and only if it is an optional marker, an optional plus sign and
one hexadecimal digit or more that denote a number of 64 bits. A poll that is told such a text
reports the number and observes it. A poll that is told any other text fails, and leaves the
counters alone. -/
theorem poll_reads_quantity (raw : String) :
    (∀ word : UInt64, Hex.quantity? raw = some word ↔
      Hex.Marked (PlusNumeral 16) raw.toList word.toNat) ∧
    (Hex.quantity? raw = none ↔
      ∀ number < 2 ^ 64, ¬ Hex.Marked (PlusNumeral 16) raw.toList number) ∧
    ∀ (n : Network) (host : Host activities) (w : World activities), n.Tells host w raw →
      (∀ word : UInt64, Hex.Marked (PlusNumeral 16) raw.toList word.toNat →
        ∃ report w', (poll n).ComesTo host w (.ok report) w' ∧ report.height = word ∧
          w'.counters = w.counters.observing word) ∧
      ((∀ number < 2 ^ 64, ¬ Hex.Marked (PlusNumeral 16) raw.toList number) →
        ∃ w', (poll n).ComesTo host w
            (.error (.rpc s!"unparsable block number {Text.quoted raw}")) w' ∧
          w'.counters = w.counters) := by
  refine ⟨fun word => Hex.quantity?_eq_some_iff, Hex.quantity?_eq_none_iff,
    fun n host w htells => ⟨fun word hmarked => ?_, fun hnone => ?_⟩⟩
  · exact poll_of_quantity htells (Hex.quantity?_eq_some_iff.2 hmarked)
  · exact poll_of_no_quantity htells (Hex.quantity?_eq_none_iff.2 hnone)

/-- The least number that takes more than 64 bits is no height. -/
theorem poll_reads_quantity_tooLarge :
    let raw := "0x10000000000000000"
    let n : Network := ⟨⟨"Validator", "http://one"⟩, ⟨"Sequencer", "http://two"⟩⟩
    let host : Host activities :=
      { transport := fun _ _ =>
          { answer := some { result := some (.text raw) }, delay := some (.ofSecs 1) } }
    let w : World activities := { counters := { lastBlock := 7, blocksObserved := 7 } }
    n.Tells host w raw ∧
      (∀ number < 2 ^ 64, ¬ Hex.Marked (PlusNumeral 16) raw.toList number) ∧
      ∃ w', (poll n).ComesTo host w
          (.error (.rpc s!"unparsable block number {Text.quoted raw}")) w' ∧
        w'.counters = w.counters := by
  intro raw n host w
  have htells : n.Tells host w raw := ⟨⟨_, rfl⟩, ⟨_, rfl⟩, ⟨_, rfl⟩, rfl⟩
  rcases poll_reads_quantity raw with ⟨-, hnone, hpoll⟩
  have hlarge := hnone.1 (by decide)
  exact ⟨htells, hlarge, (hpoll n host w htells).2 hlarge⟩

/-- A plus sign behind the marker is read over, though it is no digit. -/
theorem plus_sign_passes :
    Hex.quantity? "0x+ff" = some 255 ∧
      ∀ number, ¬ Hex.Marked (Numeral 16) "0x+ff".toList number :=
  ⟨by decide, fun _ hmarked => hmarked.not_mem_plus (by decide)⟩

end Activity
end TxWorkload
