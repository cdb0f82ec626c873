import TxWorkload.Proofs.Activity.Patrol
import TxWorkload.Proofs.Activity.Punctuality

/-!
# Readiness — how the generation waits for the network

The generation checks the network at once, and again whenever the pause after a check is over. The
first check that finds a node ends the wait, also if the run was cancelled meanwhile; without such a
check the wait ends when the run is cancelled. Either way a cancelled run sends nothing.
-/

namespace TxWorkload
namespace Activity

open Routine
open Routine (Host World)

/-! ## The wait as a patrol -/

/-- What is written about a check: a line if its poll failed, and one if it finds a node. -/
def readinessLines (outcome : Except Error Report) : List (Level × String) :=
  checkLines outcome ++
    if (reported outcome).anyUp then
      [(.info, "✅ Blockchain is ready, starting transaction generation")]
    else []

/-- The wait ends with the first check that finds a node. -/
def readinessPatrol (p : Plan) : Patrol Bool where
  network := p.network
  lines := readinessLines
  next := fun outcome => if (reported outcome).anyUp then .inr true else .inl p.startupPoll
  quit := false

/-- A check that may be cut short is a poll that may be, and a line if it failed. -/
theorem untilCancelled_check (n : Network) :
    untilCancelled (check n) = (do
      match ← untilCancelled (poll n) with
      | none => return none
      | some outcome =>
          write (checkLines outcome)
          return some (reported outcome)) := by
  unfold untilCancelled
  rw [bind_assoc]
  congr 1
  funext token
  split
  · rfl
  · rw [check_eq]
    refine (guarded_andThen _ _).trans ?_
    congr 1
    funext answer
    cases answer with
    | none => rfl
    | some outcome => cases outcome <;> rfl

theorem readinessTurn_eq (p : Plan) : p.readinessTurn = (readinessPatrol p).turn := by
  unfold Plan.readinessTurn Patrol.turn
  congr 1
  funext token
  split
  · rfl
  · rw [untilCancelled_check, bind_assoc]
    congr 1
    funext answer
    cases answer with
    | none => rfl
    | some outcome =>
        cases outcome with
        | error cause => rfl
        | ok report =>
            cases hup : report.anyUp with
            | true => simp [readinessPatrol, readinessLines, checkLines, reported, hup, write]
            | false => simp [readinessPatrol, readinessLines, checkLines, reported, hup, write]

/-- The world in which the first check begins. -/
def announced (w : World activities) : World activities :=
  w.note (.logged .info "⏳ Waiting for blockchain to be ready...")

namespace Plan

variable {p : Plan} {host : Host activities} {w w' : World activities} {ready : Bool}

theorem run_readinessPatrol (p : Plan) :
    (readinessPatrol p).run = iterate () fun _ => p.readinessTurn := by
  unfold Patrol.run
  simp only [readinessTurn_eq]

theorem awaitReady_eq (p : Plan) : p.awaitReady = (do
    log .info "⏳ Waiting for blockchain to be ready..."
    (readinessPatrol p).run) := by
  rw [run_readinessPatrol]
  rfl

theorem comesTo_awaitReady :
    p.awaitReady.ComesTo host w ready w' ↔
      (readinessPatrol p).run.ComesTo host (announced w) ready w' := by
  rw [awaitReady_eq, comesTo_bind]
  constructor
  · rintro ⟨_, w₁, hlog, h⟩
    rwa [comesTo_log.1 hlog] at h
  · exact fun h => ⟨(), _, comesTo_log.2 rfl, h⟩

theorem run_one_awaitReady (p : Plan) (host : Host activities) (w : World activities) :
    Solo.run host 1 (Solo.start w p.awaitReady) =
      Solo.start (announced w) (readinessPatrol p).run := by
  rw [awaitReady_eq]
  rfl

/-- A generation whose run is cancelled before its first transaction sends none. -/
theorem comesTo_run_of_cancelled (h : p.awaitReady.ComesTo host w ready w')
    (hquits : ready = false ∨ w'.cancelled = true) : p.run.ComesTo host w 0 w' := by
  refine comesTo_bind.2 ⟨ready, w', h, ?_⟩
  cases ready with
  | false => exact comesTo_pure.2 ⟨rfl, rfl⟩
  | true =>
      -- The first turn looks at the token before it draws a transaction.
      have hcancelled : w'.cancelled = true := hquits.resolve_left (by decide)
      refine comesTo_bind.2 ⟨w'.now, w', comesTo_act.2 rfl, ?_⟩
      refine comesTo_iterate.2 ⟨0, _, _, .start, ?_⟩
      exact comesTo_unlessIsCancelled.2 (.inl ⟨hcancelled, rfl, rfl⟩)

end Plan

/-! ## Checks that find a node -/

section

variable {n : Network} {host : Host activities} {w w' : World activities}
  {outcome : Except Error Report}

/-- Whether a check whose poll had some outcome has found a node: the poll was a success, and some
node replied. -/
def Network.Finds (n : Network) (host : Host activities) (w : World activities)
    (outcome : Except Error Report) : Prop :=
  (∃ report, outcome = .ok report) ∧ ((n.validatorReply host w.past).answer ≠ none ∨
    (n.sequencerReply host w.past).answer ≠ none)

theorem anyUp_iff (h : (poll n).ComesTo host w outcome w') :
    (reported outcome).anyUp = true ↔ n.Finds host w outcome := by
  cases outcome with
  | error cause =>
      constructor
      · intro hup
        cases hup
      · rintro ⟨⟨report, hok⟩, -⟩
        cases hok
  | ok report =>
      have hdown := allDown_iff h
      have hup : (reported (.ok report)).anyUp = true ↔ ¬ report.allDown = true := by
        simp [reported, Report.allDown]
      rw [hup, hdown, Classical.not_and_iff_not_or_not]
      exact (and_iff_right ⟨report, rfl⟩).symm

theorem next_eq_answer {p : Plan} {b : Bool} :
    (readinessPatrol p).next outcome = .inr b ↔ (reported outcome).anyUp = true ∧ b = true := by
  change (if (reported outcome).anyUp then _ else _) = _ ↔ _
  split
  · rename_i hup
    simp [hup, eq_comm]
  · rename_i hdown
    simp [hdown]

theorem next_eq_pause {p : Plan} {pause : Duration} :
    (readinessPatrol p).next outcome = .inl pause ↔
      (reported outcome).anyUp = false ∧ pause = p.startupPoll := by
  change (if (reported outcome).anyUp then _ else _) = _ ↔ _
  split
  · rename_i hup
    simp [hup]
  · rename_i hdown
    simp [hdown, eq_comm]

end

/-- Heights are nothing to the counters of transactions. -/
theorem foldl_settled (outcomes : List (Except Error Report)) (s : Stats.Counters) :
    (outcomes.foldl settled s).total = s.total ∧
      (outcomes.foldl settled s).successful = s.successful ∧
      (outcomes.foldl settled s).failed = s.failed := by
  induction outcomes generalizing s with
  | nil => exact ⟨rfl, rfl, rfl⟩
  | cons outcome rest ih =>
      have hsettled : (settled s outcome).total = s.total ∧
          (settled s outcome).successful = s.successful ∧
          (settled s outcome).failed = s.failed := by
        cases outcome with
        | ok report => exact ⟨rfl, rfl, rfl⟩
        | error cause => exact ⟨rfl, rfl, rfl⟩
      rcases ih (settled s outcome) with ⟨htotal, hsuccessful, hfailed⟩
      exact ⟨htotal.trans hsettled.1, hsuccessful.trans hsettled.2.1, hfailed.trans hsettled.2.2⟩

theorem ne_sendTransaction_of_inquires {call : Rpc.Call} (h : inquires call) :
    call.method ≠ "eth_sendTransaction" := by
  rcases h with h | h
  · rw [h]
    decide
  · rw [h]
    decide

/-! ## The end of the wait -/

section

variable {p : Plan} {host : Host activities} {w w₀ w₁ w' : World activities} {ready : Bool}
  {outcomes : List (Except Error Report)} {outcome : Except Error Report}

theorem within_awaitReady_heeding (p : Plan) : p.awaitReady.Within heeding := by
  rw [Plan.awaitReady_eq]
  exact within_bind ⟨trivial, fun _ => trivial⟩ fun _ => (readinessPatrol p).within_run

/-- The first step announces the wait, takes no time and cancels nothing. -/
theorem cancelledAt_readinessPatrol {moment : Nat}
    (h : Solo.CancelledAt host (Solo.start w₀ p.awaitReady) moment) :
    Solo.CancelledAt host (Solo.start (announced w₀) (readinessPatrol p).run) moment := by
  rw [← Plan.run_one_awaitReady]
  refine h.of_run ?_ ?_
  · rw [Plan.run_one_awaitReady]
    rfl
  · rw [Plan.run_one_awaitReady]
    rfl

/-- The wait ends with a check that finds a node, or fails because the run is cancelled. -/
theorem awaitReady_cases (h : p.awaitReady.ComesTo host w₀ ready w') :
    (∃ outcomes report w w₁, (readinessPatrol p).Begins host (announced w₀) outcomes w ∧
      (untilCancelled (poll p.network)).ComesTo host w (some (.ok report)) w₁ ∧
      report.anyUp = true ∧ ready = true ∧ w'.now = w₁.now) ∨
      ready = false ∧ w'.cancelled = true := by
  rcases Patrol.comesTo_run.1 (Plan.comesTo_awaitReady.1 h) with ⟨outcomes, hends⟩
  rcases hends.answered_or_cancelled with
    ⟨before, outcome, w, w₁, -, hbegins, hpoll, hnext, rfl⟩ | hcancelled
  · rcases next_eq_answer.1 hnext with ⟨hup, rfl⟩
    rw [eq_ok_of_anyUp hup] at hpoll
    exact .inl ⟨before, _, w, w₁, hbegins, hpoll, hup, rfl, w₁.now_write _⟩
  · exact .inr hcancelled

/-- What is true of a check that begins in some world and whose poll ends with some outcome. -/
structure Checked (p : Plan) (host : Host activities) (w₀ : World activities)
    (outcomes : List (Except Error Report)) (w : World activities)
    (outcome : Except Error Report) (w₁ : World activities) : Prop where
  /-- A check that finds a node ends the wait at that moment. -/
  found : p.network.Finds host w outcome → ∃ w₂, p.awaitReady.ComesTo host w₀ true w₂ ∧
    w₂.now = w₁.now ∧ w₂.cancelled = w₁.cancelled
  /-- After any other check comes another one, unless the run is cancelled before. -/
  goes_on : ¬ p.network.Finds host w outcome → ∃ w₂,
    ((readinessPatrol p).Begins host (announced w₀) (outcomes ++ [outcome]) w₂ ∧
        w₂.now = w₁.now + p.startupPoll.toNanos) ∨
      (p.awaitReady.ComesTo host w₀ false w₂ ∧ w₂.cancelled = true ∧ w₁.now ≤ w₂.now ∧
        w₂.now ≤ w₁.now + p.startupPoll.toNanos)

/-- What is true of a wait whose next check is about to begin, when some polls have ended. -/
structure Checking (p : Plan) (host : Host activities) (w₀ : World activities)
    (outcomes : List (Except Error Report)) (w : World activities) : Prop where
  active : w.cancelled = false
  passes : ∃ k, Solo.run host k (Solo.start w₀ p.awaitReady) =
    Solo.start w (iterate () fun _ => p.readinessTurn)
  ends_iff : (∃ outcome w₁, (untilCancelled (poll p.network)).ComesTo host w (some outcome) w₁) ↔
    p.network.Replies host w
  ended : ∀ outcome w₁, (untilCancelled (poll p.network)).ComesTo host w (some outcome) w₁ →
    Checked p host w₀ outcomes w outcome w₁
  /-- A check that is cut short is the last one. -/
  cut : ∀ w₁, (untilCancelled (poll p.network)).ComesTo host w none w₁ →
    p.awaitReady.ComesTo host w₀ false w₁ ∧ w₁.cancelled = true

/-- A check that finds a node ends the wait at that moment. -/
theorem ready_of_finds (h : (readinessPatrol p).Begins host (announced w₀) outcomes w)
    (hpoll : (untilCancelled (poll p.network)).ComesTo host w (some outcome) w₁)
    (hfinds : p.network.Finds host w outcome) :
    ∃ w₂, p.awaitReady.ComesTo host w₀ true w₂ ∧ w₂.now = w₁.now ∧
      w₂.cancelled = w₁.cancelled := by
  have hup := (anyUp_iff (comesTo_of_untilCancelled hpoll)).2 hfinds
  have hends := Patrol.Ends.ended h hpoll (.answered (next_eq_answer.2 ⟨hup, rfl⟩))
  -- Writing the last line takes no time and leaves the token alone.
  rcases w₁.write_eq ((readinessPatrol p).lines outcome) with ⟨journal, hwrite, -⟩
  refine ⟨_, Plan.comesTo_awaitReady.2 (Patrol.comesTo_run.2 ⟨_, hends⟩), w₁.now_write _, ?_⟩
  rw [hwrite]

/-- After a check that finds no node comes another one, unless the run is cancelled before. -/
theorem goes_on_of_not_finds (hclock : host.clock = {})
    (h : (readinessPatrol p).Begins host (announced w₀) outcomes w)
    (hpoll : (untilCancelled (poll p.network)).ComesTo host w (some outcome) w₁)
    (hnot : ¬ p.network.Finds host w outcome) :
    ∃ w₂, ((readinessPatrol p).Begins host (announced w₀) (outcomes ++ [outcome]) w₂ ∧
        w₂.now = w₁.now + p.startupPoll.toNanos) ∨
      (p.awaitReady.ComesTo host w₀ false w₂ ∧ w₂.cancelled = true ∧ w₁.now ≤ w₂.now ∧
        w₂.now ≤ w₁.now + p.startupPoll.toNanos) := by
  have hdown : (reported outcome).anyUp = false :=
    Bool.eq_false_iff.2 fun hup => hnot ((anyUp_iff (comesTo_of_untilCancelled hpoll)).1 hup)
  rcases h.goes_on hclock hpoll (next_eq_pause.2 ⟨hdown, rfl⟩) with ⟨w₂, -, hgoes⟩
  exact ⟨w₂, hgoes.imp_right fun hlast => ⟨Plan.comesTo_awaitReady.2 hlast.1, hlast.2⟩⟩

theorem checking_of_begins (hclock : host.clock = {})
    (h : (readinessPatrol p).Begins host (announced w₀) outcomes w) :
    Checking p host w₀ outcomes w where
  active := h.active
  passes := by
    rcases h.passes with ⟨k, hk⟩
    refine ⟨1 + k, ?_⟩
    rw [Solo.run_add, Plan.run_one_awaitReady, hk, Plan.run_readinessPatrol]
  ends_iff := exists_untilCancelled_poll h.active
  ended _ _ hpoll := ⟨ready_of_finds h hpoll, goes_on_of_not_finds hclock h hpoll⟩
  cut _ hcut := by
    have hends := Patrol.Ends.ended h hcut .abandoned
    exact ⟨Plan.comesTo_awaitReady.2 (Patrol.comesTo_run.2 ⟨_, hends⟩),
      (abandoned_of_untilCancelled h.active hcut).cancelled⟩

/-- A check after others begins when the pause after the last of them is over. -/
theorem checked_of_append (hclock : host.clock = {}) {w₂ : World activities}
    (h : (readinessPatrol p).Begins host (announced w₀) (outcomes ++ [outcome]) w₂) :
    (reported outcome).anyUp = false ∧ ∃ w w₁,
      (readinessPatrol p).Begins host (announced w₀) outcomes w ∧
      (untilCancelled (poll p.network)).ComesTo host w (some outcome) w₁ ∧
      w₂.now = w₁.now + p.startupPoll.toNanos := by
  rcases h.of_append hclock with ⟨w, w₁, pause, hbegins, hpoll, hnext, hnow⟩
  rcases next_eq_pause.1 hnext with ⟨hdown, rfl⟩
  exact ⟨hdown, w, w₁, hbegins, hpoll, hnow⟩

/-- A wait whose run is cancelled is over at that moment. -/
theorem exists_comesTo_awaitReady {moment : Nat}
    (h : Solo.CancelledAt host (Solo.start w₀ p.awaitReady) moment) :
    ∃ ready w', p.awaitReady.ComesTo host w₀ ready w' ∧ w'.now = moment := by
  rcases Patrol.exists_comesTo_run (cancelledAt_readinessPatrol h) with
    ⟨ready, w', hready, hnow, -⟩
  exact ⟨ready, w', Plan.comesTo_awaitReady.2 hready, hnow⟩

/-- The wait fails if and only if the run is cancelled and no check has found a node. -/
theorem not_ready_iff :
    (∃ w', p.awaitReady.ComesTo host w₀ false w') ↔
      (∃ moment, Solo.CancelledAt host (Solo.start w₀ p.awaitReady) moment) ∧
        ¬ ∃ w', p.awaitReady.ComesTo host w₀ true w' := by
  constructor
  · rintro ⟨w', h⟩
    rcases awaitReady_cases h with ⟨_, _, _, _, -, -, -, hready, -⟩ | ⟨-, hcancelled⟩
    · cases hready
    · refine ⟨⟨_, Solo.cancelledAt_of_comesTo (within_awaitReady_heeding p) h hcancelled⟩, ?_⟩
      rintro ⟨w'', h'⟩
      cases (h.unique h').1
  · rintro ⟨⟨moment, hmoment⟩, hnot⟩
    rcases exists_comesTo_awaitReady hmoment with ⟨ready, w', h, -⟩
    cases ready with
    | false => exact ⟨w', h⟩
    | true => exact absurd ⟨w', h⟩ hnot

/-- A wait that takes pauses ends if the run is to be cancelled from outside. -/
theorem exists_comesTo_awaitReady_of_cancelAt (hpause : 0 < host.clock.span p.startupPoll) {t : Nat}
    (ht : host.cancelAt = some t) :
    ∃ ready w', p.awaitReady.ComesTo host w₀ ready w' ∧ w'.now ≤ max w₀.now t := by
  have hspan : ∀ outcome pause, (readinessPatrol p).next outcome = .inl pause →
      0 < host.clock.span pause := by
    intro outcome pause hnext
    rw [(next_eq_pause.1 hnext).2]
    exact hpause
  rcases Patrol.exists_comesTo_run_of_cancelAt hspan ht with ⟨ready, w', h⟩
  have hready : p.awaitReady.ComesTo host w₀ ready w' := Plan.comesTo_awaitReady.2 h
  exact ⟨ready, w', hready, Solo.now_le_of_cancelAt (within_awaitReady_heeding p) hready ht⟩

/-- The wait makes as many checks as one likes, unless it ends, or waits for a reply that never
comes. -/
theorem checks_or_ends (p : Plan) (host : Host activities) (hw : w₀.cancelled = false) (k : Nat) :
    (∃ outcomes w, outcomes.length = k ∧
      (readinessPatrol p).Begins host (announced w₀) outcomes w) ∨
      (∃ ready w', p.awaitReady.ComesTo host w₀ ready w') ∨
      Solo.Hangs host (Solo.start w₀ p.awaitReady) := by
  have hactive : (announced w₀).cancelled = false := hw
  rcases (readinessPatrol p).begins_or_ends host hactive k with hbegins | ⟨ready, w', h⟩ | hhangs
  · exact .inl hbegins
  · exact .inr (.inl ⟨ready, w', Plan.comesTo_awaitReady.2 h⟩)
  · rw [← Plan.run_one_awaitReady] at hhangs
    exact .inr (.inr (Solo.hangs_of_run hhangs))

/-- What is true of a generation that ends with its wait: it returns zero, sends no transaction and
leaves the counters of transactions alone. -/
structure SendsNothing (p : Plan) (host : Host activities) (w₀ w' : World activities) : Prop where
  returns : p.run.ComesTo host w₀ 0 w'
  total : w'.counters.total = w₀.counters.total
  successful : w'.counters.successful = w₀.counters.successful
  failed : w'.counters.failed = w₀.counters.failed
  asked : ∃ asked, w'.past = asked ++ w₀.past ∧
    ∀ call ∈ asked, call.method ≠ "eth_sendTransaction"

theorem sendsNothing_of_awaitReady (h : p.awaitReady.ComesTo host w₀ ready w')
    (hquits : ready = false ∨ w'.cancelled = true) : SendsNothing p host w₀ w' := by
  rcases Patrol.comesTo_run.1 (Plan.comesTo_awaitReady.1 h) with ⟨outcomes, hends⟩
  rcases hends.leaves.past with ⟨asked, hpast, hinquires⟩
  have hcounters : w'.counters = outcomes.foldl settled w₀.counters := hends.leaves.counters
  rcases foldl_settled outcomes w₀.counters with ⟨htotal, hsuccessful, hfailed⟩
  rw [← hcounters] at htotal hsuccessful hfailed
  exact
    { returns := Plan.comesTo_run_of_cancelled h hquits
      total := htotal
      successful := hsuccessful
      failed := hfailed
      asked := ⟨asked, hpast, fun call hcall =>
        ne_sendTransaction_of_inquires (hinquires call hcall)⟩ }

end

/-- The pace of a generation that waits for the network, from some world on. -/
structure ReadinessPace (p : Plan) (host : Host activities) (w₀ : World activities) : Prop where
  unbegun : w₀.cancelled = true → p.awaitReady.ComesTo host w₀ false (announced w₀)
  /-- The first check begins at once. -/
  first : w₀.cancelled = false → (readinessPatrol p).Begins host (announced w₀) [] (announced w₀)
  /-- Each other check begins exactly when the pause after the check before is over. -/
  next : ∀ outcomes outcome w₂,
    (readinessPatrol p).Begins host (announced w₀) (outcomes ++ [outcome]) w₂ →
    (reported outcome).anyUp = false ∧ ∃ w w₁,
      (readinessPatrol p).Begins host (announced w₀) outcomes w ∧
      (untilCancelled (poll p.network)).ComesTo host w (some outcome) w₁ ∧
      w₂.now = w₁.now + p.startupPoll.toNanos
  checking : ∀ outcomes w, (readinessPatrol p).Begins host (announced w₀) outcomes w →
    Checking p host w₀ outcomes w
  /-- The wait succeeds with a check that finds a node, and at that moment. -/
  ready : ∀ w', p.awaitReady.ComesTo host w₀ true w' → ∃ outcomes report w w₁,
    (readinessPatrol p).Begins host (announced w₀) outcomes w ∧
    (untilCancelled (poll p.network)).ComesTo host w (some (.ok report)) w₁ ∧
    report.anyUp = true ∧ w'.now = w₁.now
  /-- The wait fails if and only if the run is cancelled before there was such a check. -/
  not_ready_iff : (∃ w', p.awaitReady.ComesTo host w₀ false w') ↔
    (∃ moment, Solo.CancelledAt host (Solo.start w₀ p.awaitReady) moment) ∧
      ¬ ∃ w', p.awaitReady.ComesTo host w₀ true w'
  prompt : ∀ moment, Solo.CancelledAt host (Solo.start w₀ p.awaitReady) moment →
    (∀ outcomes w, (readinessPatrol p).Begins host (announced w₀) outcomes w → w.now ≤ moment) ∧
    ∃ ready w', p.awaitReady.ComesTo host w₀ ready w' ∧ w'.now = moment
  outside : ∀ t, host.cancelAt = some t →
    ∃ ready w', p.awaitReady.ComesTo host w₀ ready w' ∧ w'.now ≤ max w₀.now t
  endless : w₀.cancelled = false → ∀ k,
    (∃ outcomes w, outcomes.length = k ∧
      (readinessPatrol p).Begins host (announced w₀) outcomes w) ∨
      (∃ ready w', p.awaitReady.ComesTo host w₀ ready w') ∨
      Solo.Hangs host (Solo.start w₀ p.awaitReady)
  quits : ∀ ready w', p.awaitReady.ComesTo host w₀ ready w' →
    ready = false ∨ w'.cancelled = true → SendsNothing p host w₀ w'

/-- The generation keeps its pace while it waits for the network. A check counts if its replies
arrive in the race against the cancellation, also those that come at once after a reply that cancels
the run; a poll that fails finds no node. -/
theorem awaitReady_keeps_pace (p : Plan) (host : Host activities) (hclock : host.clock = {})
    (hpause : 0 < p.startupPoll.toNanos) (w₀ : World activities) : ReadinessPace p host w₀ where
  unbegun hw := Plan.comesTo_awaitReady.2 (Patrol.comesTo_run.2 ⟨[], .unbegun hw⟩)
  first hw := .first hw
  next _ _ _ h := checked_of_append hclock h
  checking _ _ h := checking_of_begins hclock h
  ready w' h := by
    rcases awaitReady_cases h with
      ⟨outcomes, report, w, w₁, hbegins, hpoll, hup, -, hnow⟩ | ⟨hready, -⟩
    · exact ⟨outcomes, report, w, w₁, hbegins, hpoll, hup, hnow⟩
    · cases hready
  not_ready_iff := not_ready_iff
  prompt _ h := by
    refine ⟨fun _ _ hbegins => ?_, exists_comesTo_awaitReady h⟩
    exact hbegins.now_le (cancelledAt_readinessPatrol h)
  outside _ := by
    refine exists_comesTo_awaitReady_of_cancelAt ?_
    rw [hclock]
    exact hpause
  endless hw k := checks_or_ends p host hw k
  quits _ _ h hquits := sendsNothing_of_awaitReady h hquits

/-- The first check finds no node. In the second one the reply of the first node cancels the run,
but the replies to the other questions come at once. So a node is found, and nothing is sent. -/
theorem awaitReady_keeps_pace_twice :
    let p : Plan :=
      { generator := .ofPool .development
        network := ⟨⟨"Validator", "http://one"⟩, ⟨"Sequencer", "http://two"⟩⟩
        bursts := none
        txInterval := .ofSecs 3
        startupPoll := .ofSecs 10
        statsInterval := .ofSecs 300 }
    let host : Host activities :=
      { transport := fun past _ =>
          if past.length < 3 then { answer := none, delay := some (.ofSecs 1) }
          else if past.length = 3 then
            { answer := some {}, delay := some (.ofSecs 2), cancels := true }
          else { answer := none } }
    ∃ w', p.awaitReady.ComesTo host {} true w' ∧ p.run.ComesTo host {} 0 w' ∧
      (∃ outcomes report w w₁, (readinessPatrol p).Begins host (announced {}) outcomes w ∧
        (untilCancelled (poll p.network)).ComesTo host w (some (.ok report)) w₁ ∧
        report.anyUp = true ∧ w'.now = w₁.now) ∧
      w'.cancelled = true ∧ w'.now = 15000000000 ∧
      w'.sent.map Prod.fst = [15000000000, 15000000000, 13000000000, 2000000000, 1000000000, 0] ∧
      w'.counters.total = 0 ∧ ∀ call ∈ w'.past, call.method ≠ "eth_sendTransaction" := by
  intro p host
  obtain ⟨w', hready, hcancelled, hnow, hsent⟩ : ∃ w' : World activities,
      p.awaitReady.ComesTo host {} true w' ∧ w'.cancelled = true ∧ w'.now = 15000000000 ∧
      w'.sent.map Prod.fst =
        [15000000000, 15000000000, 13000000000, 2000000000, 1000000000, 0] := by
    have hresult : (Solo.run host 200 (Solo.start {} p.awaitReady)).strand.result? =
        some true := by
      decide +kernel
    refine ⟨_, exists_comesTo_of_result hresult, ?_⟩
    decide +kernel
  have hpace := awaitReady_keeps_pace p host rfl (by decide) {}
  have hquits := hpace.quits true w' hready (.inr hcancelled)
  rcases hquits.asked with ⟨asked, hpast, hasked⟩
  refine ⟨w', hready, hquits.returns, hpace.ready w' hready, hcancelled, hnow, hsent,
    hquits.total, ?_⟩
  rw [hpast, List.append_nil]
  exact hasked

end Activity
end TxWorkload
