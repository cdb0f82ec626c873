import TxWorkload.Proofs.Activity.Patrol

/-!
# Watch — the pace of the watch, and what it writes

The watch polls at once, and again whenever the pause after a poll is over. The pause is the short
one for recovery if the poll found that no node replies, and the usual one otherwise, also after a
poll that failed. The watch is over at the moment at which the run is cancelled.
-/

namespace TxWorkload
namespace Activity

open Routine
open Routine (Host World)

/-! ## The watch as a patrol -/

/-- The pause after a poll. -/
def pauseOf (c : Config.Watch) : Except Error Report → Duration
  | .ok report => pauseAfter c report
  | .error _ => c.poll

/-- What the watch writes about a poll: a line if it failed, and otherwise one for a height that is
known and one if no node replies. -/
def watchLines : Except Error Report → List (Level × String)
  | .ok report =>
      (if 0 < report.height then
        [(.info, s!"🧱 Block #{report.height} | Validator: {sign report.validatorUp} | " ++
          s!"Sequencer: {sign report.sequencerUp}")]
      else []) ++
      if report.allDown then [(.warn, "⚠️  All endpoints down, waiting for recovery...")] else []
  | .error cause => [(.error, s!"Monitor error: {cause.message}")]

/-- The watch ends with nothing but the run. -/
def watchPatrol (n : Network) (c : Config.Watch) : Patrol Unit where
  network := n
  lines := watchLines
  next := fun outcome => .inl (pauseOf c outcome)
  quit := ()

theorem record_eq (c : Config.Watch) (outcome : Except Error Report) :
    record c outcome = (do
      write (watchLines outcome)
      return pauseOf c outcome) := by
  cases outcome with
  | error cause => rfl
  | ok report =>
      unfold record watchLines pauseOf
      dsimp only
      split
      · split <;> rfl
      · split <;> rfl

theorem watchTurn_eq (n : Network) (c : Config.Watch) :
    watchTurn n c = (watchPatrol n c).turn := by
  unfold watchTurn Patrol.turn
  congr 1
  funext token
  split
  · rfl
  · congr 1
    funext answer
    cases answer with
    | none => rfl
    | some outcome =>
        dsimp only
        rw [record_eq, bind_assoc]
        rfl

theorem watch_eq (n : Network) (c : Config.Watch) : watch n c = (watchPatrol n c).run := by
  unfold watch Patrol.run
  simp only [watchTurn_eq]

/-! ## The pace of the watch -/

/-- Whether a poll of some outcome has found the network down: the poll was a success, and no node
replied. -/
def Network.Down (n : Network) (host : Host activities) (w : World activities)
    (outcome : Except Error Report) : Prop :=
  (∃ report, outcome = .ok report) ∧ (n.validatorReply host w.past).answer = none ∧
    (n.sequencerReply host w.past).answer = none

section

variable {n : Network} {host : Host activities} {w w' : World activities}
  {outcome : Except Error Report}

theorem pauseOf_of_down (c : Config.Watch) (h : (poll n).ComesTo host w outcome w')
    (hdown : n.Down host w outcome) : pauseOf c outcome = c.recovery := by
  rcases hdown with ⟨⟨report, rfl⟩, hboth⟩
  exact if_pos ((allDown_iff h).2 hboth)

theorem pauseOf_of_not_down (c : Config.Watch) (h : (poll n).ComesTo host w outcome w')
    (hup : ¬ n.Down host w outcome) : pauseOf c outcome = c.poll := by
  cases outcome with
  | error cause => rfl
  | ok report => exact if_neg fun hdown => hup ⟨⟨report, rfl⟩, (allDown_iff h).1 hdown⟩

end

theorem pos_pauseOf {c : Config.Watch} (hpoll : 0 < c.poll.toNanos)
    (hrecovery : 0 < c.recovery.toNanos) (outcome : Except Error Report) :
    0 < (pauseOf c outcome).toNanos := by
  have hpause : pauseOf c outcome = c.recovery ∨ pauseOf c outcome = c.poll := by
    cases outcome with
    | error cause => exact .inr rfl
    | ok report => exact ite_eq_or_eq _ _ _
  rcases hpause with hpause | hpause
  · rw [hpause]
    exact hrecovery
  · rw [hpause]
    exact hpoll

/-! ## The course of the watch -/

section

variable {n : Network} {c : Config.Watch} {host : Host activities} {w w₀ w₁ w' : World activities}
  {outcomes : List (Except Error Report)} {outcome : Except Error Report}

theorem comesTo_watch : (watch n c).ComesTo host w₀ () w' ↔
    ∃ outcomes, (watchPatrol n c).Ends host w₀ outcomes () w' := by
  rw [watch_eq]
  exact Patrol.comesTo_run

theorem within_watch_heeding (n : Network) (c : Config.Watch) : (watch n c).Within heeding := by
  rw [watch_eq]
  exact (watchPatrol n c).within_run

/-- The watch gives no answer of its own, so it ends with the run only. -/
theorem cancelled_of_watch (h : (watch n c).ComesTo host w₀ () w') : w'.cancelled = true := by
  rcases comesTo_watch.1 h with ⟨outcomes, hends⟩
  rcases hends.answered_or_cancelled with ⟨_, _, _, _, -, -, -, hnext, -⟩ | ⟨-, hcancelled⟩
  · cases hnext
  · exact hcancelled

/-- What is true of a poll of the watch that begins in some world and ends with some outcome. -/
structure WatchPolled (n : Network) (c : Config.Watch) (host : Host activities)
    (w₀ : World activities) (outcomes : List (Except Error Report)) (w : World activities)
    (outcome : Except Error Report) (w₁ : World activities) : Prop where
  recovery : n.Down host w outcome → pauseOf c outcome = c.recovery
  usual : ¬ n.Down host w outcome → pauseOf c outcome = c.poll
  asked : ∃ t₁ t₂, w₁.sent = (t₂, heightCall n.validator) :: (t₁, versionCall n.sequencer) ::
    (w.now, versionCall n.validator) :: w.sent
  /-- The next poll begins when the pause is over, unless the run is cancelled before. -/
  goes_on : ∃ w₂, w₂.lines = (watchLines outcome).reverse ++ w.lines ∧
    w₂.counters = settled w.counters outcome ∧
    (((watchPatrol n c).Begins host w₀ (outcomes ++ [outcome]) w₂ ∧
        w₂.now = w₁.now + (pauseOf c outcome).toNanos) ∨
      ((watch n c).ComesTo host w₀ () w₂ ∧ w₂.cancelled = true ∧ w₁.now ≤ w₂.now ∧
        w₂.now ≤ w₁.now + (pauseOf c outcome).toNanos))

/-- What is true of a watch whose next poll is about to begin, when some polls have ended. -/
structure WatchPolling (n : Network) (c : Config.Watch) (host : Host activities)
    (w₀ : World activities) (outcomes : List (Except Error Report)) (w : World activities) :
    Prop where
  active : w.cancelled = false
  passes : ∃ k, Solo.run host k (Solo.start w₀ (watch n c)) = Solo.start w (watch n c)
  lines : w.lines = (outcomes.flatMap watchLines).reverse ++ w₀.lines
  counters : w.counters = outcomes.foldl settled w₀.counters
  ends_iff : (∃ outcome w₁, (untilCancelled (poll n)).ComesTo host w (some outcome) w₁) ↔
    n.Replies host w
  ended : ∀ outcome w₁, (untilCancelled (poll n)).ComesTo host w (some outcome) w₁ →
    WatchPolled n c host w₀ outcomes w outcome w₁
  /-- A poll that is cut short is the last one, and leaves lines and counters alone. -/
  cut : ∀ w₁, (untilCancelled (poll n)).ComesTo host w none w₁ →
    (watch n c).ComesTo host w₀ () w₁ ∧ w₁.cancelled = true ∧ w₁.lines = w.lines ∧
      w₁.counters = w.counters

theorem watchPolled_of_begins (hclock : host.clock = {})
    (h : (watchPatrol n c).Begins host w₀ outcomes w)
    (hends : (untilCancelled (poll n)).ComesTo host w (some outcome) w₁) :
    WatchPolled n c host w₀ outcomes w outcome w₁ := by
  have hpoll := comesTo_of_untilCancelled hends
  rcases (polled_of_comesTo hpoll).on_time with ⟨_, _, _, -, -, -, hsent, -⟩
  rcases h.goes_on hclock hends rfl with ⟨w₂, hleft, hgoes⟩
  have hlines := hleft.lines
  rw [List.flatMap_singleton] at hlines
  rw [← watch_eq] at hgoes
  exact
    { recovery := pauseOf_of_down c hpoll
      usual := pauseOf_of_not_down c hpoll
      asked := ⟨_, _, hsent⟩
      goes_on := ⟨w₂, hlines, hleft.counters, hgoes⟩ }

theorem watchPolling_of_begins (hclock : host.clock = {})
    (h : (watchPatrol n c).Begins host w₀ outcomes w) :
    WatchPolling n c host w₀ outcomes w where
  active := h.active
  passes := by
    rw [watch_eq]
    exact h.passes
  lines := h.leaves.lines
  counters := h.leaves.counters
  ends_iff := exists_untilCancelled_poll h.active
  ended _ _ hends := watchPolled_of_begins hclock h hends
  cut _ hcut := by
    have hleft := abandoned_of_untilCancelled h.active hcut
    exact ⟨comesTo_watch.2 ⟨_, .ended h hcut .abandoned⟩, hleft.cancelled, hleft.lines,
      hleft.counters⟩

/-- A poll after others begins when the pause after the last of them is over. -/
theorem begins_of_append (hclock : host.clock = {}) {w₂ : World activities}
    (h : (watchPatrol n c).Begins host w₀ (outcomes ++ [outcome]) w₂) :
    ∃ w w₁, (watchPatrol n c).Begins host w₀ outcomes w ∧
      (untilCancelled (poll n)).ComesTo host w (some outcome) w₁ ∧
      w₂.now = w₁.now + (pauseOf c outcome).toNanos := by
  rcases h.of_append hclock with ⟨w, w₁, pause, hbegins, hends, hnext, hnow⟩
  cases hnext
  exact ⟨w, w₁, hbegins, hends, hnow⟩

/-- A watch whose run is cancelled is over at that moment. -/
theorem exists_comesTo_watch {moment : Nat}
    (h : Solo.CancelledAt host (Solo.start w₀ (watch n c)) moment) :
    ∃ w', (watch n c).ComesTo host w₀ () w' ∧ w'.now = moment := by
  rw [watch_eq] at h ⊢
  rcases Patrol.exists_comesTo_run h with ⟨_, w', hrun, hnow, -⟩
  exact ⟨w', hrun, hnow⟩

/-- The watch makes as many polls as one likes, unless it ends, or waits for a reply that never
comes. -/
theorem polls_or_ends (n : Network) (c : Config.Watch) (host : Host activities)
    (hw : w₀.cancelled = false) (k : Nat) :
    (∃ outcomes w, outcomes.length = k ∧ (watchPatrol n c).Begins host w₀ outcomes w) ∨
      (∃ w', (watch n c).ComesTo host w₀ () w') ∨ Solo.Hangs host (Solo.start w₀ (watch n c)) := by
  rw [watch_eq]
  rcases (watchPatrol n c).begins_or_ends host hw k with hbegins | ⟨_, w', h⟩ | hhangs
  · exact .inl hbegins
  · exact .inr (.inl ⟨w', h⟩)
  · exact .inr (.inr hhangs)

/-- The run of a watch is cancelled in time if it is to be cancelled from outside. -/
theorem exists_cancelledAt_watch (hclock : host.clock = {}) (hpoll : 0 < c.poll.toNanos)
    (hrecovery : 0 < c.recovery.toNanos) {t : Nat} (ht : host.cancelAt = some t) :
    ∃ moment, Solo.CancelledAt host (Solo.start w₀ (watch n c)) moment ∧
      moment ≤ max w₀.now t := by
  have hpause : ∀ outcome pause, (watchPatrol n c).next outcome = .inl pause →
      0 < host.clock.span pause := by
    rintro outcome pause ⟨⟩
    rw [hclock]
    exact pos_pauseOf hpoll hrecovery outcome
  rcases Patrol.exists_comesTo_run_of_cancelAt hpause ht with ⟨_, w', h⟩
  rw [← watch_eq] at h
  have hheeds := within_watch_heeding n c
  exact ⟨w'.now, Solo.cancelledAt_of_comesTo hheeds h (cancelled_of_watch h),
    Solo.now_le_of_cancelAt hheeds h ht⟩

end

/-- The pace of a watch that starts in some world. -/
structure WatchPace (n : Network) (c : Config.Watch) (host : Host activities)
    (w₀ : World activities) : Prop where
  unbegun : w₀.cancelled = true → (watch n c).ComesTo host w₀ () w₀
  /-- The first poll begins at once. -/
  first : w₀.cancelled = false → (watchPatrol n c).Begins host w₀ [] w₀
  /-- Each other poll begins exactly when the pause after the poll before is over. -/
  next : ∀ outcomes outcome w₂, (watchPatrol n c).Begins host w₀ (outcomes ++ [outcome]) w₂ →
    ∃ w w₁, (watchPatrol n c).Begins host w₀ outcomes w ∧
      (untilCancelled (poll n)).ComesTo host w (some outcome) w₁ ∧
      w₂.now = w₁.now + (pauseOf c outcome).toNanos
  polling : ∀ outcomes w, (watchPatrol n c).Begins host w₀ outcomes w →
    WatchPolling n c host w₀ outcomes w
  /-- The watch returns in a cancelled run only, and the lines of its polls are all it writes. -/
  returned : ∀ w', (watch n c).ComesTo host w₀ () w' → w'.cancelled = true ∧
    ∃ outcomes, (watchPatrol n c).Ends host w₀ outcomes () w' ∧
      w'.lines = (outcomes.flatMap watchLines).reverse ++ w₀.lines ∧
      w'.counters = outcomes.foldl settled w₀.counters
  /-- Once the run is cancelled no poll begins, and the watch returns at that moment. -/
  prompt : ∀ moment, Solo.CancelledAt host (Solo.start w₀ (watch n c)) moment →
    (∀ outcomes w, (watchPatrol n c).Begins host w₀ outcomes w → w.now ≤ moment) ∧
    ∃ w', (watch n c).ComesTo host w₀ () w' ∧ w'.now = moment
  outside : ∀ t, host.cancelAt = some t →
    ∃ moment, Solo.CancelledAt host (Solo.start w₀ (watch n c)) moment ∧ moment ≤ max w₀.now t
  endless : w₀.cancelled = false → ∀ k,
    (∃ outcomes w, outcomes.length = k ∧ (watchPatrol n c).Begins host w₀ outcomes w) ∨
      (∃ w', (watch n c).ComesTo host w₀ () w') ∨ Solo.Hangs host (Solo.start w₀ (watch n c))

/-- The watch keeps its pace: it polls again whenever the pause after a poll is over, and returns
when its run is cancelled. -/
theorem watch_keeps_pace (n : Network) (c : Config.Watch) (host : Host activities)
    (hclock : host.clock = {}) (hpoll : 0 < c.poll.toNanos) (hrecovery : 0 < c.recovery.toNanos)
    (w₀ : World activities) : WatchPace n c host w₀ where
  unbegun hw := comesTo_watch.2 ⟨[], .unbegun hw⟩
  first := .first
  next _ _ _ h := begins_of_append hclock h
  polling _ _ h := watchPolling_of_begins hclock h
  returned w' h := by
    refine ⟨cancelled_of_watch h, ?_⟩
    rcases comesTo_watch.1 h with ⟨outcomes, hends⟩
    exact ⟨outcomes, hends, hends.leaves.lines, hends.leaves.counters⟩
  prompt moment h := by
    refine ⟨fun outcomes w hbegins => ?_, exists_comesTo_watch h⟩
    rw [watch_eq] at h
    exact hbegins.now_le h
  outside t := exists_cancelledAt_watch hclock hpoll hrecovery
  endless hw k := polls_or_ends n c host hw k

/-- The first poll finds no node, so the second one begins after the short pause. It fails, though
both nodes reply, so the third one begins after the long pause. No reply to it ever comes: it is
abandoned when the run is cancelled. -/
theorem watch_keeps_pace_thrice :
    let n : Network := ⟨⟨"Validator", "http://one"⟩, ⟨"Sequencer", "http://two"⟩⟩
    let c : Config.Watch := { poll := .ofSecs 10, recovery := .ofSecs 2 }
    let host : Host activities :=
      { transport := fun past call =>
          if past.length < 3 then { answer := none, delay := some (.ofSecs 1) }
          else if past.length < 6 then
            { answer := some { result := some (.text call.method) } }
          else { answer := none, delay := none }
        cancelAt := some 20000000000 }
    ∃ outcomes w', (watch n c).ComesTo host {} () w' ∧
      Solo.CancelledAt host (Solo.start {} (watch n c)) 20000000000 ∧
      (watchPatrol n c).Ends host {} outcomes () w' ∧ w'.now = 20000000000 ∧
      w'.sent.map Prod.fst = [15000000000, 5000000000, 5000000000, 5000000000, 2000000000,
        1000000000, 0] ∧
      w'.lines.map Prod.fst = [.error, .warn] ∧ w'.counters = {} := by
  intro n c host
  obtain ⟨w', hreturns, hnow, hsent, hlines, hcounters⟩ : ∃ w' : World activities,
      (watch n c).ComesTo host {} () w' ∧ w'.now = 20000000000 ∧
      w'.sent.map Prod.fst = [15000000000, 5000000000, 5000000000, 5000000000, 2000000000,
        1000000000, 0] ∧
      w'.lines.map Prod.fst = [.error, .warn] ∧ w'.counters = {} := by
    have hresult : (Solo.run host 200 (Solo.start {} (watch n c))).strand.result? = some () := by
      decide +kernel
    refine ⟨_, exists_comesTo_of_result hresult, ?_⟩
    decide +kernel
  have hpace := watch_keeps_pace n c host rfl (by decide) (by decide) {}
  rcases hpace.returned w' hreturns with ⟨-, outcomes, hends, -, -⟩
  rcases hpace.outside _ rfl with ⟨moment, hmoment, -⟩
  rcases (hpace.prompt moment hmoment).2 with ⟨w'', hreturns', hnow'⟩
  rcases hreturns.unique hreturns' with ⟨-, rfl⟩
  cases hnow.symm.trans hnow'
  exact ⟨outcomes, w', hreturns, hmoment, hends, hnow, hsent, hlines, hcounters⟩

end Activity
end TxWorkload
