import TxWorkload.Proofs.Activity.Schedule
import TxWorkload.Proofs.Routine.Reply
import TxWorkload.Proofs.Rpc.Presence

/-!
# Poll — what one poll of the network asks, counts and reports

A poll asks three questions, each of them when the reply to the one before has come. Then it takes
no more time: the height is read, and counted if it can be read. So a poll that is cut short has
counted nothing, and one that fails leaves the counters alone.
-/

namespace TxWorkload

/-! ## Counters -/

namespace Stats.Counters

/-- The counters after a height has been observed. -/
def observing (s : Counters) (height : UInt64) : Counters :=
  { s with
    lastBlock := max s.lastBlock height
    blocksObserved := s.blocksObserved + (max s.lastBlock height - s.lastBlock) }

/-- If all blocks up to the watermark have been observed, it stays so. -/
theorem observing_of_eq {s : Counters} (h : s.blocksObserved = s.lastBlock) (height : UInt64) :
    s.observing height =
      { s with
        lastBlock := max s.lastBlock height
        blocksObserved := max s.lastBlock height } := by
  rw [observing, h, UInt64.add_comm, UInt64.sub_add_cancel]

end Stats.Counters

namespace Activity

open Routine
open Routine (Host World)

variable {n : Network} {host : Host activities} {w w' : World activities}

/-! ## Questions and replies -/

/-- The question for the version of a node. -/
def versionCall (endpoint : Endpoint) : Rpc.Call :=
  ⟨endpoint.url, "web3_clientVersion", .null⟩

/-- The question for the height of a node. -/
def heightCall (endpoint : Endpoint) : Rpc.Call :=
  ⟨endpoint.url, "eth_blockNumber", .null⟩

namespace Network

/-- The questions of a poll, latest first. -/
def questions (n : Network) : List Rpc.Call :=
  [heightCall n.validator, versionCall n.sequencer, versionCall n.validator]

variable (n : Network) (host : Host activities) (past : List Rpc.Call)

/-- The reply to the first question of a poll. -/
def validatorReply : Reply (Option Rpc.Response) :=
  host.transport past (versionCall n.validator)

/-- The reply to the second question of a poll. -/
def sequencerReply : Reply (Option Rpc.Response) :=
  host.transport (versionCall n.validator :: past) (versionCall n.sequencer)

/-- The reply to the third question of a poll. -/
def heightReply : Reply (Option Rpc.Response) :=
  host.transport (versionCall n.sequencer :: versionCall n.validator :: past)
    (heightCall n.validator)

theorem inquires_of_question {n : Network} {call : Rpc.Call} (h : call ∈ n.questions) :
    inquires call := by
  rcases List.mem_cons.1 h with rfl | h
  · exact .inr rfl
  · rcases List.mem_cons.1 h with rfl | h
    · exact .inl rfl
    · rw [List.mem_singleton] at h
      subst h
      exact .inl rfl

end Network

/-! ## The height -/

/-- Whether a result is the text of a quantity. -/
def IsQuantity (value : Json) (number : UInt64) : Prop :=
  ∃ raw, value = .text raw ∧ Hex.quantity? raw = some number

/-- A height that is there but no quantity is an error; without a result it is zero. -/
theorem height_eq_ok {response : Option Rpc.Response} {number : UInt64} :
    height response = .ok number ↔
      (response.bind (·.result) = none ∧ number = 0) ∨
        ∃ value, response.bind (·.result) = some value ∧ IsQuantity value number := by
  unfold height IsQuantity
  split
  · rename_i raw hresult
    cases hquantity : Hex.quantity? raw with
    | none => simp [hresult, hquantity]
    | some number' => simp [hresult, hquantity, eq_comm]
  · rename_i other hother hresult
    have hnot : ∀ raw, other ≠ .text raw := fun raw h => hother raw h
    simp [hresult, hnot]
  · rename_i hresult
    simp [hresult, eq_comm]

theorem height_eq_error {response : Option Rpc.Response} :
    (∃ cause, height response = .error cause) ↔
      ∃ value, response.bind (·.result) = some value ∧ ∀ number, ¬ IsQuantity value number := by
  constructor
  · rintro ⟨cause, hcause⟩
    have hnone : ∀ number, height response ≠ .ok number := by
      rintro number hok
      cases hcause.symm.trans hok
    cases hresult : response.bind (·.result) with
    | none => exact absurd (height_eq_ok.2 (.inl ⟨hresult, rfl⟩)) (hnone 0)
    | some value =>
        refine ⟨value, rfl, fun number hnumber => hnone number ?_⟩
        exact height_eq_ok.2 (.inr ⟨value, hresult, hnumber⟩)
  · rintro ⟨value, hresult, hnot⟩
    cases hheight : height response with
    | error cause => exact ⟨cause, rfl⟩
    | ok number =>
        rcases height_eq_ok.1 hheight with ⟨hnone, -⟩ | ⟨value', hvalue', hnumber⟩
        · cases hresult.symm.trans hnone
        · cases hresult.symm.trans hvalue'
          exact absurd hnumber (hnot number)

/-! ## The end of a poll -/

/-- Whether a world differs from another one in counters and notes only: no time has passed, and
nothing was asked or written. -/
structure Quiet (w w' : World activities) : Prop where
  now : w'.now = w.now
  cancelled : w'.cancelled = w.cancelled
  past : w'.past = w.past
  sent : w'.sent = w.sent
  lines : w'.lines = w.lines

theorem Quiet.trans {w₁ w₂ w₃ : World activities} (h : Quiet w₁ w₂) (h' : Quiet w₂ w₃) :
    Quiet w₁ w₃ where
  now := h'.now.trans h.now
  cancelled := h'.cancelled.trans h.cancelled
  past := h'.past.trans h.past
  sent := h'.sent.trans h.sent
  lines := h'.lines.trans h.lines

theorem quiet_mark (w : World activities) (m : Milestone) : Quiet w (w.note (.marked m)) :=
  ⟨rfl, rfl, rfl, rfl, rfl⟩

theorem exists_observed (host : Host activities) (w : World activities) (height : UInt64) :
    ∃ delta w', (observe height).ComesTo host w delta w' ∧ Quiet w w' ∧
      w'.counters = w.counters.observing height := by
  let raised : World activities :=
    { w with counters := ((Stats.Access.raise .lastBlock height).apply w.counters).2 }.note
      (.counted (.raise .lastBlock height))
  have hraise : (access (.raise .lastBlock height) : Activity UInt64).ComesTo host w
      w.counters.lastBlock raised := comesTo_act.2 rfl
  -- Blocks are counted only if the watermark rises.
  by_cases hlt : w.counters.lastBlock < height
  · let delta := height - w.counters.lastBlock
    let counted : World activities :=
      { raised with
        counters := ((Stats.Access.add .blocksObserved delta).apply raised.counters).2 }.note
        (.counted (.add .blocksObserved delta))
    have hadd : (access (.add .blocksObserved delta) : Activity UInt64).ComesTo host raised
        raised.counters.blocksObserved counted := comesTo_act.2 rfl
    have hmax : max w.counters.lastBlock height = height := if_pos (UInt64.le_of_lt hlt)
    refine ⟨delta, counted, comesTo_bind.2 ⟨_, _, hraise, ?_⟩, ⟨rfl, rfl, rfl, rfl, rfl⟩, ?_⟩
    · rw [if_pos hlt]
      exact comesTo_bind.2 ⟨_, _, hadd, comesTo_pure.2 ⟨rfl, rfl⟩⟩
    · have hcounters : counted.counters = { w.counters with
          lastBlock := if w.counters.lastBlock < height then height else w.counters.lastBlock
          blocksObserved := w.counters.blocksObserved + delta } := rfl
      rw [hcounters, if_pos hlt, Stats.Counters.observing, hmax]
  · have hmax : max w.counters.lastBlock height = w.counters.lastBlock := by
      have hle := UInt64.not_lt.1 hlt
      change (if w.counters.lastBlock ≤ height then height else w.counters.lastBlock) = _
      split
      · rename_i hge
        exact UInt64.le_antisymm hle hge
      · rfl
    refine ⟨0, raised, comesTo_bind.2 ⟨_, _, hraise, ?_⟩, ⟨rfl, rfl, rfl, rfl, rfl⟩, ?_⟩
    · rw [if_neg hlt]
      exact comesTo_pure.2 ⟨rfl, rfl⟩
    · have hcounters : raised.counters = { w.counters with
          lastBlock := if w.counters.lastBlock < height then height else w.counters.lastBlock } :=
        rfl
      rw [hcounters, if_neg hlt, Stats.Counters.observing, hmax, UInt64.sub_self, UInt64.add_zero]

/-- What a poll makes of the three answers. -/
def appraise (validator sequencer answer : Option Rpc.Response) :
    Activity (Except Error Report) :=
  match height answer with
  | .ok height => do
      let _ ← observe height
      return .ok ⟨validator.isSome, sequencer.isSome, height⟩
  | .error cause => return .error cause

/-- What a poll does when all answers have come. -/
def conclude (validator sequencer answer : Option Rpc.Response) :
    Activity (Except Error Report) := do
  let outcome ← appraise validator sequencer answer
  mark (.polled outcome)
  return outcome

theorem poll_eq (n : Network) : poll n = (do
    let validator ← ask (S := activities) (versionCall n.validator)
    let sequencer ← ask (S := activities) (versionCall n.sequencer)
    let answer ← ask (S := activities) (heightCall n.validator)
    conclude validator sequencer answer) :=
  rfl

/-- The outcome that three answers give. -/
def outcomeOf (validator sequencer answer : Option Rpc.Response) : Except Error Report :=
  (height answer).map fun height => ⟨validator.isSome, sequencer.isSome, height⟩

/-- The counters after a poll with some outcome. -/
def settled (s : Stats.Counters) : Except Error Report → Stats.Counters
  | .ok report => s.observing report.height
  | .error _ => s

theorem exists_concluded (host : Host activities) (w : World activities)
    (validator sequencer answer : Option Rpc.Response) :
    ∃ w', (conclude validator sequencer answer).ComesTo host w
        (outcomeOf validator sequencer answer) w' ∧ Quiet w w' ∧
      w'.counters = settled w.counters (outcomeOf validator sequencer answer) := by
  have happraise : ∃ w', (appraise validator sequencer answer).ComesTo host w
        (outcomeOf validator sequencer answer) w' ∧ Quiet w w' ∧
      w'.counters = settled w.counters (outcomeOf validator sequencer answer) := by
    unfold appraise outcomeOf
    cases height answer with
    | ok height =>
        rcases exists_observed host w height with ⟨delta, w₁, hobserve, hquiet, hcounters⟩
        exact ⟨w₁, comesTo_bind.2 ⟨_, _, hobserve, comesTo_pure.2 ⟨rfl, rfl⟩⟩, hquiet, hcounters⟩
    | error cause => exact ⟨w, comesTo_pure.2 ⟨rfl, rfl⟩, ⟨rfl, rfl, rfl, rfl, rfl⟩, rfl⟩
  rcases happraise with ⟨w₁, happraise, hquiet, hcounters⟩
  let m : Milestone := .polled (outcomeOf validator sequencer answer)
  refine ⟨w₁.note (.marked m), comesTo_bind.2 ⟨_, _, happraise, ?_⟩,
    hquiet.trans (quiet_mark w₁ m), hcounters⟩
  exact comesTo_bind.2 ⟨_, _, comesTo_mark.2 rfl, comesTo_pure.2 ⟨rfl, rfl⟩⟩

theorem within_conclude (validator sequencer answer : Option Rpc.Response) :
    (conclude validator sequencer answer).Within swift := by
  refine within_bind ?_ fun outcome => ⟨trivial, fun _ => trivial⟩
  unfold appraise
  split
  · refine within_bind ⟨trivial, fun before => ?_⟩ fun _ => trivial
    change Within _ (ite (before < _) _ _)
    split
    · exact ⟨trivial, fun _ => trivial⟩
    · exact trivial
  · exact trivial

/-! ## Polls that end -/

/-- What is true of a poll that has ended: what it asked and when, what came of it, and what it
counted. -/
structure Polled (n : Network) (host : Host activities) (w : World activities)
    (outcome : Except Error Report) (w' : World activities) : Prop where
  past : w'.past = n.questions ++ w.past
  on_time : ∃ d₁ d₂ d₃, (n.validatorReply host w.past).delay = some d₁ ∧
    (n.sequencerReply host w.past).delay = some d₂ ∧
    (n.heightReply host w.past).delay = some d₃ ∧
    let t₁ := host.clock.deadline w.now d₁
    let t₂ := host.clock.deadline t₁ d₂
    w'.sent = (t₂, heightCall n.validator) :: (t₁, versionCall n.sequencer) ::
      (w.now, versionCall n.validator) :: w.sent ∧
    w'.now = host.clock.deadline t₂ d₃
  outcome_eq : outcome = outcomeOf (n.validatorReply host w.past).answer
    (n.sequencerReply host w.past).answer (n.heightReply host w.past).answer
  counters : w'.counters = settled w.counters outcome
  lines : w'.lines = w.lines

theorem polled_of_comesTo {outcome : Except Error Report}
    (h : (poll n).ComesTo host w outcome w') : Polled n host w outcome w' := by
  rw [poll_eq] at h
  rcases heard_of_ask_bind h with ⟨d₁, token₁, hdelay₁, h⟩
  rcases heard_of_ask_bind h with ⟨d₂, token₂, hdelay₂, h⟩
  rcases heard_of_ask_bind h with ⟨d₃, token₃, hdelay₃, h⟩
  rcases exists_concluded host _ _ _ _ with ⟨w'', hconclude, hquiet, hcounters⟩
  rcases h.unique hconclude with ⟨rfl, rfl⟩
  exact
    { past := hquiet.past
      on_time := ⟨d₁, d₂, d₃, hdelay₁, hdelay₂, hdelay₃, hquiet.sent, hquiet.now⟩
      outcome_eq := rfl
      counters := hcounters
      lines := hquiet.lines }

theorem Polled.now_le {outcome : Except Error Report} (h : Polled n host w outcome w') :
    w.now ≤ w'.now := by
  rcases h.on_time with ⟨d₁, d₂, d₃, -, -, -, -, hnow⟩
  calc w.now ≤ host.clock.deadline w.now d₁ := host.clock.le_deadline _ _
    _ ≤ host.clock.deadline (host.clock.deadline w.now d₁) d₂ := host.clock.le_deadline _ _
    _ ≤ w'.now := by
      rw [hnow]
      exact host.clock.le_deadline _ _

/-- A poll that may be cut short and is not. -/
theorem comesTo_of_untilCancelled {outcome : Except Error Report}
    (h : (untilCancelled (poll n)).ComesTo host w (some outcome) w') :
    (poll n).ComesTo host w outcome w' := by
  rcases comesTo_untilCancelled.1 h with ⟨-, hnone, -⟩ | ⟨-, h⟩
  · cases hnone
  · exact comesTo_of_guarded h

/-- A poll ends if and only if all three replies come. -/
theorem exists_comesTo_poll :
    (∃ outcome w', (poll n).ComesTo host w outcome w') ↔
      (∃ d, (n.validatorReply host w.past).delay = some d) ∧
      (∃ d, (n.sequencerReply host w.past).delay = some d) ∧
      ∃ d, (n.heightReply host w.past).delay = some d := by
  constructor
  · rintro ⟨outcome, w', h⟩
    rcases (polled_of_comesTo h).on_time with ⟨d₁, d₂, d₃, h₁, h₂, h₃, -⟩
    exact ⟨⟨d₁, h₁⟩, ⟨d₂, h₂⟩, d₃, h₃⟩
  · rintro ⟨⟨d₁, h₁⟩, ⟨d₂, h₂⟩, d₃, h₃⟩
    rw [poll_eq]
    refine exists_comesTo_ask_bind h₁ fun token₁ => ?_
    refine exists_comesTo_ask_bind h₂ fun token₂ => ?_
    refine exists_comesTo_ask_bind h₃ fun token₃ => ?_
    rcases exists_concluded host _ _ _ _ with ⟨w', hconclude, -⟩
    exact ⟨_, w', hconclude⟩

/-! ## Polls that are cut short -/

/-- What is true of a poll that was cut short: it may have asked some of its questions, but nothing
was counted or written, and the run is cancelled. -/
structure Abandoned (n : Network) (w w' : World activities) : Prop where
  past : ∃ asked, asked <:+ n.questions ∧ w'.past = asked ++ w.past
  counters : w'.counters = w.counters
  lines : w'.lines = w.lines
  cancelled : w'.cancelled = true

theorem abandoned_of_untilCancelled (hw : w.cancelled = false)
    (h : (untilCancelled (poll n)).ComesTo host w none w') : Abandoned n w w' := by
  rcases comesTo_untilCancelled.1 h with ⟨hcancelled, -⟩ | ⟨-, h⟩
  · exact absurd (hcancelled.symm.trans hw) (by decide)
  rw [poll_eq] at h
  rcases comesTo_guarded_ask_bind.1 h with ⟨d₁, -, h⟩ | ⟨-, hraced⟩
  · rcases comesTo_guarded_ask_bind.1 h with ⟨d₂, -, h⟩ | ⟨-, hraced⟩
    · rcases comesTo_guarded_ask_bind.1 h with ⟨d₃, -, h⟩ | ⟨-, hraced⟩
      · -- When all replies have come, nothing is cut short any more.
        rcases (comesTo_guarded_of_swift (within_conclude _ _ _)).1 h with ⟨outcome, -, hnone⟩
        cases hnone
      · rw [hraced.missed]
        exact ⟨⟨n.questions, List.suffix_refl _, rfl⟩, rfl, rfl, rfl⟩
    · rw [hraced.missed]
      exact ⟨⟨_, List.suffix_cons _ _, rfl⟩, rfl, rfl, rfl⟩
  · rw [hraced.missed]
    refine ⟨⟨[versionCall n.validator], ?_, rfl⟩, rfl, rfl, rfl⟩
    exact ⟨[heightCall n.validator, versionCall n.sequencer], rfl⟩

/-- Whether the replies to all questions of a poll arrive in a race against cancellation. A reply
that itself cancels the run has arrived, and so have those that come at once after it. -/
def Network.Replies (n : Network) (host : Host activities) (w : World activities) : Prop :=
  let validator := n.validatorReply host w.past
  let sequencer := n.sequencerReply host w.past
  ∃ d₁ d₂ d₃, Arrives host w.now false validator d₁ ∧
    let t₁ := host.clock.deadline w.now d₁
    Arrives host t₁ validator.cancels sequencer d₂ ∧
      Arrives host (host.clock.deadline t₁ d₂) (validator.cancels || sequencer.cancels)
        (n.heightReply host w.past) d₃

/-- A poll that may be cut short is not if all replies arrive. -/
theorem exists_untilCancelled_poll (hw : w.cancelled = false) :
    (∃ outcome w', (untilCancelled (poll n)).ComesTo host w (some outcome) w') ↔
      n.Replies host w := by
  -- In an active run it makes no difference that the token is looked at first.
  have hguarded : ∀ outcome w', (untilCancelled (poll n)).ComesTo host w (some outcome) w' ↔
      (poll n).guarded.ComesTo host w (some outcome) w' := by
    intro outcome w'
    rw [comesTo_untilCancelled]
    simp [hw]
  simp only [hguarded]
  rw [poll_eq]
  constructor
  · rintro ⟨outcome, w', h⟩
    rcases comesTo_guarded_ask_bind.1 h with ⟨d₁, harrives₁, h⟩ | ⟨hnone, -⟩
    · rcases comesTo_guarded_ask_bind.1 h with ⟨d₂, harrives₂, h⟩ | ⟨hnone, -⟩
      · rcases comesTo_guarded_ask_bind.1 h with ⟨d₃, harrives₃, h⟩ | ⟨hnone, -⟩
        · rw [hw] at harrives₁
          simp only [World.heard, hw, Bool.false_or] at harrives₂ harrives₃
          exact ⟨d₁, d₂, d₃, harrives₁, harrives₂, harrives₃⟩
        · cases hnone
      · cases hnone
    · cases hnone
  · rintro ⟨d₁, d₂, d₃, harrives₁, harrives₂, harrives₃⟩
    let w₁ := w.heard (versionCall n.validator) (host.clock.deadline w.now d₁)
      (n.validatorReply host w.past).cancels
    let w₂ := w₁.heard (versionCall n.sequencer) (host.clock.deadline w₁.now d₂)
      (w₁.cancelled || (n.sequencerReply host w.past).cancels)
    let w₃ := w₂.heard (heightCall n.validator) (host.clock.deadline w₂.now d₃)
      (w₂.cancelled || (n.heightReply host w.past).cancels)
    rcases exists_concluded host w₃ (n.validatorReply host w.past).answer
      (n.sequencerReply host w.past).answer (n.heightReply host w.past).answer with
      ⟨w', hconclude, -⟩
    refine ⟨outcomeOf (n.validatorReply host w.past).answer (n.sequencerReply host w.past).answer
      (n.heightReply host w.past).answer, w', comesTo_guarded_ask_bind.2 (.inl ⟨d₁, ?_, ?_⟩)⟩
    · rw [hw]
      exact harrives₁
    rw [hw, Bool.false_or]
    refine comesTo_guarded_ask_bind.2 (.inl ⟨d₂, harrives₂, ?_⟩)
    refine comesTo_guarded_ask_bind.2 (.inl ⟨d₃, harrives₃, ?_⟩)
    exact (comesTo_guarded_of_swift (within_conclude _ _ _)).2 ⟨_, hconclude, rfl⟩

/-! ## Checks -/

/-- What a check writes about its poll. -/
def checkLines : Except Error Report → List (Level × String)
  | .ok _ => []
  | .error cause => [(.error, s!"Health check failed: {cause.message}")]

theorem check_eq (n : Network) : check n = (do
    let outcome ← poll n
    write (checkLines outcome)
    return reported outcome) := by
  unfold check
  congr 1
  funext outcome
  cases outcome <;> rfl

/-- A check is a poll, and writes a line if it has failed. -/
theorem comesTo_check {report : Report} :
    (check n).ComesTo host w report w' ↔
      ∃ outcome w₁, (poll n).ComesTo host w outcome w₁ ∧ report = reported outcome ∧
        w' = w₁.write (checkLines outcome) := by
  rw [check_eq, comesTo_bind]
  constructor
  · rintro ⟨outcome, w₁, hpoll, h⟩
    rcases comesTo_bind.1 h with ⟨_, w₂, hwrite, h⟩
    rcases comesTo_pure.1 h with ⟨rfl, rfl⟩
    exact ⟨outcome, w₁, hpoll, rfl, comesTo_write.1 hwrite⟩
  · rintro ⟨outcome, w₁, hpoll, rfl, rfl⟩
    refine ⟨outcome, w₁, hpoll, comesTo_bind.2 ⟨(), _, comesTo_write.2 rfl, ?_⟩⟩
    exact comesTo_pure.2 ⟨rfl, rfl⟩

/-! ## Outcomes -/

section

variable {validator sequencer answer : Option Rpc.Response}

theorem outcomeOf_eq_ok {report : Report} (h : outcomeOf validator sequencer answer = .ok report) :
    report.validatorUp = validator.isSome ∧ report.sequencerUp = sequencer.isSome ∧
      height answer = .ok report.height := by
  unfold outcomeOf at h
  cases hheight : height answer with
  | error cause =>
      rw [hheight] at h
      cases h
  | ok number =>
      rw [hheight] at h
      cases h
      exact ⟨rfl, rfl, rfl⟩

theorem outcomeOf_eq_error :
    (∃ cause, outcomeOf validator sequencer answer = .error cause) ↔
      ∃ cause, height answer = .error cause := by
  unfold outcomeOf
  cases height answer with
  | error cause => simp [Except.map]
  | ok number => simp [Except.map]

end

/-- A poll finds everything down if neither node has replied to the question for its version. -/
theorem allDown_iff {report : Report} (h : (poll n).ComesTo host w (.ok report) w') :
    report.allDown = true ↔ (n.validatorReply host w.past).answer = none ∧
      (n.sequencerReply host w.past).answer = none := by
  rcases outcomeOf_eq_ok (polled_of_comesTo h).outcome_eq.symm with ⟨hvalidator, hsequencer, -⟩
  simp [Report.allDown, Report.anyUp, hvalidator, hsequencer]

/-- A poll ends if and only if all three replies come, and asks each question when the reply to the
one before has come, whatever it was. It fails if and only if there is a height that is no quantity,
and then the counters are as before. Otherwise it reports which nodes have replied and the height,
and the watermark rises to the height, and so do the blocks observed. A check does the same, but
reports everything down after a poll that has failed. The result of a response is never `null`, for
`null` is read as absent. -/
theorem poll_reports_replies (n : Network) (host : Host activities) (w : World activities) :
    let validator := n.validatorReply host w.past
    let sequencer := n.sequencerReply host w.past
    let answer := n.heightReply host w.past
    let result := answer.answer.bind (·.result)
    ((∃ outcome w', (poll n).ComesTo host w outcome w') ↔ (∃ d, validator.delay = some d) ∧
      (∃ d, sequencer.delay = some d) ∧ ∃ d, answer.delay = some d) ∧
    (∀ outcome w', (poll n).ComesTo host w outcome w' →
      w'.past = n.questions ++ w.past ∧ w'.lines = w.lines ∧
      (∃ d₁ d₂ d₃, validator.delay = some d₁ ∧ sequencer.delay = some d₂ ∧
        answer.delay = some d₃ ∧
        let t₁ := host.clock.deadline w.now d₁
        let t₂ := host.clock.deadline t₁ d₂
        w'.sent = (t₂, heightCall n.validator) :: (t₁, versionCall n.sequencer) ::
          (w.now, versionCall n.validator) :: w.sent ∧
        w'.now = host.clock.deadline t₂ d₃) ∧
      ((∃ cause, outcome = .error cause) ↔
        ∃ value, result = some value ∧ ∀ number, ¬ IsQuantity value number) ∧
      (∀ cause, outcome = .error cause → w'.counters = w.counters) ∧
      ∀ report, outcome = .ok report →
        report.validatorUp = validator.answer.isSome ∧
        report.sequencerUp = sequencer.answer.isSome ∧
        ((result = none ∧ report.height = 0) ∨
          ∃ value, result = some value ∧ IsQuantity value report.height) ∧
        w'.counters = w.counters.observing report.height ∧
        (w.counters.blocksObserved = w.counters.lastBlock →
          w'.counters = { w.counters with
            lastBlock := max w.counters.lastBlock report.height
            blocksObserved := max w.counters.lastBlock report.height })) ∧
    (∀ outcome w', (untilCancelled (poll n)).ComesTo host w (some outcome) w' →
      (poll n).ComesTo host w outcome w') ∧
    (∀ report w', (check n).ComesTo host w report w' ↔
      ∃ outcome w₁, (poll n).ComesTo host w outcome w₁ ∧
        (∀ r, outcome = .ok r → report = r ∧ w' = w₁) ∧
        ∀ cause, outcome = .error cause → report = {} ∧
          w' = w₁.note (.logged .error s!"Health check failed: {cause.message}")) ∧
    ∀ bytes response, Rpc.Response.read bytes = .ok response → response.result ≠ some .null := by
  intro validator sequencer answer result
  refine ⟨exists_comesTo_poll, fun outcome w' h => ?_, fun outcome w' h => ?_,
    fun report w' => ?_, fun bytes response h => (Rpc.Response.present_of_read h).result⟩
  · have hpolled := polled_of_comesTo h
    have houtcome := hpolled.outcome_eq
    refine ⟨hpolled.past, hpolled.lines, hpolled.on_time, ?_, ?_, ?_⟩
    · rw [houtcome, outcomeOf_eq_error]
      exact height_eq_error
    · rintro cause rfl
      exact hpolled.counters
    · rintro report rfl
      rcases outcomeOf_eq_ok houtcome.symm with ⟨hvalidator, hsequencer, hheight⟩
      refine ⟨hvalidator, hsequencer, height_eq_ok.1 hheight, hpolled.counters, fun heq => ?_⟩
      rw [hpolled.counters]
      exact Stats.Counters.observing_of_eq heq _
  · exact comesTo_of_untilCancelled h
  · rw [comesTo_check]
    constructor
    · rintro ⟨outcome, w₁, hpoll, rfl, rfl⟩
      refine ⟨outcome, w₁, hpoll, ?_, ?_⟩
      · rintro r rfl
        exact ⟨rfl, rfl⟩
      · rintro cause rfl
        exact ⟨rfl, rfl⟩
    · rintro ⟨outcome, w₁, hpoll, hok, herror⟩
      cases outcome with
      | ok r => exact ⟨_, w₁, hpoll, hok r rfl⟩
      | error cause => exact ⟨_, w₁, hpoll, herror cause rfl⟩

/-- The validator replies with an error, the sequencer not at all, and the height is a word. So the
poll fails after two replies that were fine, and the counters are as before. -/
theorem poll_reports_replies_malformed :
    let n : Network := ⟨⟨"Validator", "http://one"⟩, ⟨"Sequencer", "http://two"⟩⟩
    let host : Host activities :=
      { transport := fun past call =>
          if call.method = "eth_blockNumber" then
            { answer := some { result := some (.text "five") }, delay := some (.ofSecs 3) }
          else if past = [] then
            { answer := some { error := some (.text "busy") }, delay := some (.ofSecs 1) }
          else { answer := none } }
    let w : World activities := { counters := { lastBlock := 7, blocksObserved := 7 } }
    ∃ cause w', (poll n).ComesTo host w (.error cause) w' ∧ w'.counters = w.counters ∧
      w'.past = n.questions ∧ w'.now = 4000000000 ∧
      (check n).ComesTo host w {}
        (w'.note (.logged .error s!"Health check failed: {cause.message}")) := by
  intro n host w
  have hfailed : (Solo.run host 12 (Solo.start w (poll n))).strand.result?.map Except.toOption =
      some none := by decide +kernel
  have hnow : (Solo.run host 12 (Solo.start w (poll n))).world.now = 4000000000 := by
    decide +kernel
  obtain ⟨cause, w', hw', hpoll⟩ : ∃ cause w', w'.now = 4000000000 ∧
      (poll n).ComesTo host w (.error cause) w' := by
    rcases Option.map_eq_some_iff.1 hfailed with ⟨outcome, hresult, houtcome⟩
    cases outcome with
    | ok report => cases houtcome
    | error cause => exact ⟨cause, _, hnow, exists_comesTo_of_result hresult⟩
  clear hfailed hnow
  rcases poll_reports_replies n host w with ⟨-, hends, -, hcheck, -⟩
  rcases hends _ _ hpoll with ⟨hpast, -, -, -, hfails, -⟩
  refine ⟨cause, w', hpoll, hfails cause rfl, hpast, hw',
    (hcheck _ _).2 ⟨.error cause, w', hpoll, ?_, ?_⟩⟩
  · rintro r ⟨⟩
  · rintro cause' ⟨⟩
    exact ⟨rfl, rfl⟩

end Activity
end TxWorkload
