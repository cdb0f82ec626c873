import TxWorkload.Proofs.Activity.Schedule

/-!
# Punctuality — the generation keeps to its schedule

What the parts of the generation evaluate to is what the schedule says of them: a submission, the
turns of a burst, the dice, a round, a check. A loop goes through its turns, so a whole burst, the
whole wait for the network and all rounds follow by induction on them. Time is that of an ideal
clock: only sleeps and replies take time, and a sleep takes as long as it should.
-/

namespace TxWorkload
namespace Activity

open Routine
open Routine (Act Deed Host Point Stretch Naps Turns World)

variable {p : Plan} {host : Host activities} {w w₁ w' : World activities}
  {deeds before : List (Deed activities)}

theorem noted_of_mark {m : Milestone}
    (h : (mark m : Activity Unit).Evaluates host w deeds () w') :
    deeds = [noted w.point m] ∧ w'.point = w.point :=
  mark_of_evaluates h

/-! ## Submissions and bursts -/

theorem settles_doing {kind : Act activities → Prop} : Settles (doing kind) where
  successful := doing_of_idle trivial
  failed := doing_of_idle trivial
  log := fun _ _ => doing_of_idle trivial
  checkpoint := doing_of_idle trivial

theorem sends_of_evaluates {drawn : Transaction × Kind} {label : String} {hash : Option String}
    (hdraw : (draw p.generator.generate : Activity _).Evaluates host w before drawn w₁)
    (hsubmit : (submit p.network.endpoints drawn.1 label).Evaluates host w₁ deeds hash w') :
    p.Sends w.point (before ++ deeds) w'.point := by
  rcases draws_of_evaluates hdraw with ⟨rfl, hdrawn⟩
  rcases evaluates_bind.1 hsubmit with ⟨_, w₂, begun, _, hbegun, h₂, rfl⟩
  rcases evaluates_bind.1 h₂ with ⟨_, w₃, counted, _, hcounted, h₃, rfl⟩
  rcases evaluates_bind.1 h₃ with ⟨_, w₄, asked, _, hoffered, h₄, rfl⟩
  rcases evaluates_bind.1 h₄ with ⟨_, w₅, ended, _, hended, ⟨rfl, rfl, rfl⟩, rfl⟩
  have hasks : ∀ endpoint ∈ p.network.endpoints,
      asksFor drawn.1 p.network.endpoints (.asks (submissionCall drawn.1 endpoint)) :=
    fun endpoint h => ⟨endpoint, h, rfl⟩
  have hoffers : (offer drawn.1 label p.network.endpoints).Within
      (doing (asksFor drawn.1 p.network.endpoints)) :=
    within_offer settles_doing hasks label
  have hcounts : (count .total).Within (doing fun _ => False) :=
    ⟨doing_of_idle trivial, fun _ => trivial⟩
  have hoffer := stretch_of_evaluates hoffers hoffered
  rcases noted_of_mark hbegun with ⟨rfl, hw₂⟩
  rcases idle_of_evaluates hcounts hcounted with ⟨rfl, hw₃⟩
  rcases noted_of_mark hended with ⟨rfl, hw₅⟩
  rw [hw₃, hw₂] at hoffer
  have hsends : p.Sends w.point
      (noted w.point .submitting :: (asked ++ [noted w₄.point (.submitted hash)])) w₄.point :=
    .intro hdrawn hoffer
  rw [hw₅, noted_of_draws hdrawn]
  simpa using hsends

/-- One turn of a burst: it is over, or one more transaction is sent. -/
theorem burstTurn_of_evaluates {b : Config.Bursts} {size sent : Nat} {turn : Nat ⊕ Nat}
    (hclock : host.clock = {})
    (h : (Burst.turn b p.generator p.network.endpoints size sent).Evaluates host w deeds turn w') :
    Extends (p.Bursts b size) sent w.point deeds turn w'.point := by
  unfold Burst.turn at h
  split at h
  · rename_i hlt
    rcases unlessCancelled_of_evaluates .isCancelled (fun _ => rfl) rfl h with
      ⟨hw, rfl, rfl, rfl⟩ | ⟨hw, h₁⟩
    · exact .ended (.inr hw)
    · rcases evaluates_bind.1 h₁ with ⟨drawn, w₂, drew, _, hdraw, h₂, rfl⟩
      rcases evaluates_bind.1 h₂ with ⟨_, w₃, submitted, _, hsubmit, h₃, rfl⟩
      rcases evaluates_bind.1 h₃ with ⟨c, w₄, slept, _, hsleep, h₄, rfl⟩
      have hsends := sends_of_evaluates hdraw hsubmit
      have hnap := naps_of_evaluates hclock hsleep
      cases c with
      | true =>
          rcases h₄ with ⟨rfl, rfl, rfl⟩
          have hlast := Plan.Bursts.last hlt hw hsends hnap
          simpa [Extends] using hlast
      | false =>
          rcases h₄ with ⟨rfl, rfl, rfl⟩
          intro rest total z hrest
          have hnext := Plan.Bursts.next hlt hw hsends hnap hrest
          simpa using hnext
  · rename_i hge
    rcases h with ⟨rfl, rfl, rfl⟩
    exact .ended (.inl (Nat.le_of_not_lt hge))

theorem isDue_iff (b : Config.Bursts) {number : Nat} (hpos : 0 < number) :
    Burst.isDue b number = true ↔ max 1 b.every.toNat ∣ number := by
  simp only [Burst.isDue, hpos, decide_true, Bool.true_and, beq_iff_eq, Nat.dvd_iff_mod_eq_zero]

/-- What follows a transaction: the dice, and the burst. -/
theorem rolls_of_evaluates {number : Nat} (hclock : host.clock = {}) (hpos : 0 < number)
    (h : (p.burst number).Evaluates host w deeds () w') :
    p.Rolls number w.point deeds w'.point := by
  unfold Plan.burst at h
  cases hbursts : p.bursts with
  | none =>
      rw [hbursts] at h
      rcases h with ⟨rfl, -, rfl⟩
      exact .off hbursts
  | some b =>
      rw [hbursts] at h
      dsimp only at h
      split at h
      · rename_i hdue
        have hdvd := (isDue_iff b hpos).1 hdue
        rcases evaluates_bind.1 h with ⟨size, w₁, _, _, hdraw, h₁, rfl⟩
        rcases evaluates_bind.1 h₁ with ⟨_, w₂, _, _, hmark, h₂, rfl⟩
        rcases draws_of_evaluates hdraw with ⟨rfl, hroll⟩
        rcases noted_of_mark hmark with ⟨rfl, hw₂⟩
        cases size with
        | none =>
            rcases h₂ with ⟨rfl, -, rfl⟩
            rw [hw₂, noted_of_draws hroll]
            exact .quiet hbursts hdvd hroll
        | some size =>
            rcases evaluates_bind.1 h₂ with ⟨_, w₃, _, _, hrun, ⟨rfl, -, rfl⟩, rfl⟩
            rcases evaluates_bind.1 hrun with ⟨_, w₄, _, _, hlog, h₄, rfl⟩
            rcases evaluates_bind.1 h₄ with ⟨sent, w₅, during, _, hturns, h₅, rfl⟩
            rcases evaluates_bind.1 h₅ with ⟨_, w₆, _, _, hended, ⟨rfl, rfl, rfl⟩, rfl⟩
            rcases log_of_evaluates hlog with ⟨rfl, hw₄⟩
            rcases noted_of_mark hended with ⟨rfl, hw₆⟩
            have hburst : p.Bursts b size.toNat 0 w₄.point during _ w₅.point :=
              loop_of_evaluates (burstTurn_of_evaluates hclock) hturns
            rw [hw₄, hw₂] at hburst
            rw [hw₆, noted_of_draws hroll]
            have hrolls := Plan.Rolls.burst hbursts hdvd hroll hburst
            simpa using hrolls
      · rename_i hdue
        rcases h with ⟨rfl, -, rfl⟩
        exact .notDue hbursts fun hdvd => hdue ((isDue_iff b hpos).2 hdvd)

/-! ## Rounds -/

theorem reports_doing {kind : Act activities → Prop} : Reports (doing kind) where
  load := fun _ => doing_of_idle trivial
  log := fun _ _ => doing_of_idle trivial
  clock := doing_of_idle trivial
  uptime := doing_of_idle trivial

/-- One turn of the generation: the run is cancelled, or one more round is made. -/
theorem turn_of_evaluates {s : Plan.Progress} {turn : Plan.Progress ⊕ Nat}
    (hclock : host.clock = {}) (h : (p.turn s).Evaluates host w deeds turn w') :
    Extends (fun s => p.Rounds s.sent) s w.point deeds turn w'.point := by
  rcases unlessCancelled_of_evaluates .isCancelled (fun _ => rfl) rfl h with
    ⟨hw, rfl, rfl, rfl⟩ | ⟨hw, h₁⟩
  · exact .cancelled hw
  · rcases evaluates_bind.1 h₁ with ⟨drawn, w₂, drew, _, hdraw, h₂, rfl⟩
    rcases evaluates_bind.1 h₂ with ⟨_, w₃, submitted, _, hsubmit, h₃, rfl⟩
    rcases evaluates_bind.1 h₃ with ⟨_, w₄, rolled, _, hburst, h₄, rfl⟩
    rcases evaluates_bind.1 h₄ with ⟨lastStats, w₅, _, _, hstatistics, h₅, rfl⟩
    rcases evaluates_bind.1 h₅ with ⟨d, w₆, _, _, hpause, h₆, rfl⟩
    rcases evaluates_bind.1 h₆ with ⟨_, w₇, _, _, hpaced, h₇, rfl⟩
    rcases evaluates_bind.1 h₇ with ⟨c, w₈, slept, _, hsleep, h₈, rfl⟩
    have hsends := sends_of_evaluates hdraw hsubmit
    have hrolls := rolls_of_evaluates hclock (Nat.succ_pos _) hburst
    have hnap := naps_of_evaluates hclock hsleep
    -- Statistics take no time, so the pause is drawn where the burst has ended.
    rcases idle_of_evaluates (reports_doing.within_statistics p _) hstatistics with ⟨rfl, hw₅⟩
    rcases draws_of_evaluates hpause with ⟨rfl, hdrawn⟩
    rcases noted_of_mark hpaced with ⟨rfl, hw₇⟩
    rw [hw₅] at hdrawn
    rw [hw₇] at hnap
    have hround := Plan.Round.intro hw hsends hrolls hdrawn hnap
    rw [noted_of_draws hdrawn]
    cases c with
    | true =>
        rcases h₈ with ⟨rfl, rfl, rfl⟩
        have hlast := Plan.Rounds.last hround
        simpa [Extends] using hlast
    | false =>
        rcases h₈ with ⟨rfl, rfl, rfl⟩
        intro rest n z hrest
        have hnext := Plan.Rounds.next hround hrest
        simpa using hnext

/-! ## Readiness -/

theorem measures_doing : Measures (doing asksState) where
  raise := fun _ => doing_of_idle trivial
  add := fun _ => doing_of_idle trivial
  ask := fun call h => ⟨call, h, rfl⟩

/-- The measurement of a poll that may be cut short, and the outcome that is noted. -/
theorem poll_of_evaluates {n : Network} {answer : Option (Except Error Report)}
    (h : (poll n).guarded.Evaluates host w deeds answer w') :
    (answer = none ∧ Stretch asksState w.point deeds w'.point ∧ w'.point.cancelled = true) ∨
      ∃ outcome, answer = some outcome ∧ Checks w.point deeds outcome w'.point := by
  have hpoll : (poll n).guarded = (measure n).guarded.andThen fun answer =>
      answer.elim (.done none) fun outcome =>
        (do
          mark (.polled outcome)
          return outcome : Activity (Except Error Report)).guarded :=
    guarded_andThen _ _
  rw [hpoll] at h
  rcases evaluates_andThen.1 h with ⟨measured, w₁, asked, _, hmeasure, h₁, rfl⟩
  have hmeasures : (measure n).guarded.Within (doing asksState) :=
    within_guarded (within_measure measures_doing n) (fun _ h => h) (fun _ _ _ h => h) id
  have hasked := stretch_of_evaluates hmeasures hmeasure
  cases measured with
  | none =>
      rcases h₁ with ⟨rfl, rfl, rfl⟩
      rw [List.append_nil]
      exact .inl ⟨rfl, hasked, cancelled_of_guarded hmeasure⟩
  | some outcome =>
      rcases h₁ with ⟨_, w₂, _, hmark, rfl, rfl, rfl, rfl⟩
      cases hmark
      exact .inr ⟨outcome, rfl, .intro hasked⟩

theorem check_of_evaluates {n : Network} {answer : Option Report}
    (h : (check n).guarded.Evaluates host w deeds answer w') :
    (answer = none ∧ Stretch asksState w.point deeds w'.point ∧ w'.point.cancelled = true) ∨
      ∃ outcome, answer = some (reported outcome) ∧ Checks w.point deeds outcome w'.point := by
  unfold check at h
  rcases evaluates_andThen.1 ((guarded_andThen (poll n) _).symm ▸ h) with
    ⟨polled, w₁, before, _, hpoll, h₁, rfl⟩
  rcases poll_of_evaluates hpoll with ⟨rfl, hasked, hcancelled⟩ | ⟨outcome, rfl, hchecks⟩
  · rcases h₁ with ⟨rfl, rfl, rfl⟩
    rw [List.append_nil]
    exact .inl ⟨rfl, hasked, hcancelled⟩
  · cases outcome with
    | ok report =>
        rcases h₁ with ⟨rfl, rfl, rfl⟩
        rw [List.append_nil]
        exact .inr ⟨_, rfl, hchecks⟩
    | error cause =>
        rcases h₁ with ⟨_, w₂, _, hlog, rfl, rfl, rfl, rfl⟩
        cases hlog
        rw [List.append_nil]
        exact .inr ⟨_, rfl, hchecks⟩

/-- A failed poll takes everything to be down. -/
theorem eq_ok_of_anyUp {outcome : Except Error Report} (h : (reported outcome).anyUp = true) :
    outcome = .ok (reported outcome) := by
  cases outcome with
  | ok report => rfl
  | error cause => cases h

/-- One turn of the wait for the network: it is the last one, or no node has answered. -/
theorem readinessTurn_of_evaluates {turn : Unit ⊕ Bool} (hclock : host.clock = {})
    (h : p.readinessTurn.Evaluates host w deeds turn w') :
    Extends (fun _ => p.Readies) () w.point deeds turn w'.point := by
  rcases unlessCancelled_of_evaluates .isCancelled (fun _ => rfl) rfl h with
    ⟨hw, rfl, rfl, rfl⟩ | ⟨hw, h₁⟩
  · exact .cancelled hw
  rcases evaluates_bind.1 h₁ with ⟨answer, w₂, checked, _, hcheck, h₂, rfl⟩
  rcases untilCancelled_of_evaluates hcheck with ⟨hcancelled, -⟩ | ⟨-, hguarded⟩
  · exact absurd (hcancelled.symm.trans hw) (by decide)
  rcases check_of_evaluates hguarded with ⟨rfl, hasked, hcancelled⟩ | ⟨outcome, rfl, hchecks⟩
  · rcases h₂ with ⟨rfl, rfl, rfl⟩
    have hcut : p.Readies w.point checked false w'.point := .cutShort hw hasked hcancelled
    simpa [Extends] using hcut
  · dsimp only at h₂
    cases hup : (reported outcome).anyUp with
    | true =>
        rw [hup] at h₂
        rcases evaluates_bind.1 h₂ with ⟨_, w₃, _, _, hlog, ⟨rfl, rfl, rfl⟩, rfl⟩
        rcases log_of_evaluates hlog with ⟨rfl, hw₃⟩
        rw [eq_ok_of_anyUp hup] at hchecks
        have hready : p.Readies w.point checked true w₂.point := .ready hw hchecks hup
        simpa [Extends, hw₃] using hready
    | false =>
        rw [hup] at h₂
        rcases evaluates_bind.1 h₂ with ⟨c, w₃, slept, _, hsleep, h₃, rfl⟩
        have hnap := naps_of_evaluates hclock hsleep
        cases c with
        | true =>
            rcases h₃ with ⟨rfl, rfl, rfl⟩
            have hlast := Plan.Readies.last hw hchecks hup hnap
            simpa [Extends] using hlast
        | false =>
            rcases h₃ with ⟨rfl, rfl, rfl⟩
            intro rest ready z hrest
            have hagain := Plan.Readies.again hw hchecks hup hnap hrest
            simpa using hagain

theorem readies_of_evaluates {ready : Bool} (hclock : host.clock = {})
    (h : p.awaitReady.Evaluates host w deeds ready w') :
    p.Readies w.point deeds ready w'.point := by
  rcases evaluates_bind.1 h with ⟨_, w₁, _, checks, hlog, hturns, rfl⟩
  rcases log_of_evaluates hlog with ⟨rfl, hw₁⟩
  rw [← hw₁]
  exact loop_of_evaluates (readinessTurn_of_evaluates hclock) hturns

/-! ## Runs of the generation -/

theorem launches_heeding (g : Transaction.Generator) : Launches heeding g where
  total := trivial
  successful := trivial
  failed := trivial
  log := fun _ _ => trivial
  submitting := trivial
  submitted := fun _ => trivial
  checkpoint := trivial
  ask := fun _ => rfl
  isCancelled := trivial
  burstEnded := fun _ => trivial
  generate := trivial
  timer := fun _ => rfl
  loops := trivial

namespace Plan

theorem generates_heeding (p : Plan) : Generates heeding p where
  toLaunches := launches_heeding p.generator
  load := fun _ => trivial
  clock := trivial
  uptime := trivial
  rolled := fun _ => trivial
  paced := fun _ => trivial
  roll := fun _ _ => trivial
  pause := trivial

/-- All waits of the generation race against cancellation. -/
theorem within_run_heeding (p : Plan) : p.run.Within heeding := by
  have hready : p.awaitReady.Within (bystander .task) :=
    p.within_awaitReady (awaits_bystander trivial)
  refine within_bind (within_mono hready (fun _ _ => trivial) (fun _ _ _ h => ?_) id) ?_
  · exact h.resolve_right id
  · intro ready
    cases ready with
    | false => exact trivial
    | true =>
        refine within_bind ⟨trivial, fun _ => trivial⟩ fun now => ?_
        exact within_iterate trivial fun _ => p.generates_heeding.within_turn _

/-- What the generation does until it returns: the checks and the rounds. -/
theorem readies_and_rounds_of_evaluates {n : Nat} (hclock : host.clock = {})
    (h : p.run.Evaluates host w deeds n w') :
    ∃ checks ready rounds y, deeds = checks ++ rounds ∧ p.Readies w.point checks ready y ∧
      (ready = true → p.Rounds 0 y rounds n w'.point) ∧
      (ready = false → rounds = [] ∧ n = 0 ∧ w'.point = y) := by
  rcases evaluates_bind.1 h with ⟨ready, w₁, checks, rounds, hready, hrest, rfl⟩
  refine ⟨checks, ready, rounds, w₁.point, rfl, readies_of_evaluates hclock hready, ?_, ?_⟩
  · rintro rfl
    rcases evaluates_bind.1 hrest with ⟨now, w₂, _, _, hnow, hturns, rfl⟩
    have hlooks : (act .clock : Activity Nat).Within (doing fun _ => False) :=
      ⟨doing_of_idle trivial, fun _ => trivial⟩
    rcases idle_of_evaluates hlooks hnow with ⟨rfl, hw₂⟩
    rw [← hw₂]
    exact loop_of_evaluates (turn_of_evaluates hclock) hturns
  · rintro rfl
    rcases hrest with ⟨rfl, rfl, rfl⟩
    exact ⟨rfl, rfl, rfl⟩

/-- Once the generation returns, it has kept to its schedule: behind the checks come the rounds,
each of them when the pause of the last one is over, as long as the run is not cancelled. The run is
cancelled then, and no time has passed since. The dice were cast once for each multiple of the
interval between rolls. -/
theorem run_keeps_schedule (p : Plan) (host : Host activities) (hclock : host.clock = {})
    (world : World activities) (k n : Nat)
    (h : (Solo.run host k (Solo.start world p.run)).strand.result? = some n) :
    let run := fun i => (Solo.run host i (Solo.start world p.run)).world
    let deeds := Solo.trail host k (Solo.start world p.run)
    (∃ checks ready rounds y, deeds = checks ++ rounds ∧ p.Readies world.point checks ready y ∧
      (ready = true → p.Rounds 0 y rounds n (run k).point) ∧
      (ready = false ∨ y.cancelled = true → rounds = [] ∧ n = 0 ∧ (run k).point = y)) ∧
    (run k).cancelled = true ∧
    (∀ i, (run i).cancelled = true → (run i).now = (run k).now) ∧
    (∀ t, host.cancelAt = some t → (run k).now ≤ max world.now t ∧
      ∀ i, t ≤ (run i).now → (run i).now = world.now ∨ (run i).cancelled = true) ∧
    (p.bursts = none → rolls deeds = 0) ∧
    ∀ b, p.bursts = some b → rolls deeds = n / max 1 b.every.toNat := by
  intro run deeds
  have hheeds : (Solo.start world p.run).strand.Within heeding := p.within_run_heeding
  have hend : (Solo.run host k (Solo.start world p.run)).step host = none := by
    rw [Solo.eq_of_result h]
    rfl
  rcases readies_and_rounds_of_evaluates hclock (Solo.evaluates_of_run h) with
    ⟨checks, ready, rounds, y, hdeeds, hready, hrounds, hnone⟩
  have hcasts := casts_of_readies hready hrounds hnone
  rw [← hdeeds] at hcasts
  refine ⟨⟨checks, ready, rounds, y, hdeeds, hready, hrounds, ?_⟩, ?_, ?_, ?_, ?_, ?_⟩
  · rintro (hunready | hcancelled)
    · exact hnone hunready
    · cases ready with
      | false => exact hnone rfl
      | true => exact (hrounds rfl).of_cancelled hcancelled
  · cases ready with
    | true => exact (hrounds rfl).ends_cancelled
    | false =>
        have hpoint := (hnone rfl).2.2
        exact (congrArg Point.cancelled hpoint).trans hready.cancelled_of_false
  · exact fun i hi => Solo.now_of_cancelled hheeds hend i hi
  · intro t ht
    exact ⟨(Solo.heeds_run hheeds k).2.2 t ht, fun i => Solo.now_eq_or_cancelled_run _ i ht⟩
  · intro hbursts
    simpa [casts, hbursts] using hcasts
  · intro b hbursts
    simpa [casts, hbursts] using hcasts

/-- The first check finds no node, the second one does. Then there are two rounds with a pause in
between. The second one casts the dice and sends a burst of two, whose last reply cancels the
run. -/
theorem run_keeps_schedule_twice :
    let p : Plan :=
      { generator := .ofPool .development
        network := ⟨⟨"Validator", "http://one"⟩, ⟨"Sequencer", "http://two"⟩⟩
        bursts := some { every := 2, probability := 1.0, least := 2, most := 2 }
        txInterval := .ofSecs 3
        startupPoll := .ofSecs 10
        statsInterval := .ofSecs 300 }
    let host : Host activities :=
      { transport := fun past call =>
          if call.method = "eth_sendTransaction" then
            { answer := some {}, delay := some (.ofSecs 2), cancels := past.length = 13 }
          else { answer := if past.length < 3 then none else some {} } }
    let words : Random.Supply := [0, 0, 9223372036854775808, 0, 0]
    let deviation : Random.Supply := [9223372036854775808]
    let world : World activities :=
      { supply := words ++ deviation ++ words ++ [0] ++ words ++ words ++ deviation }
    let x := Solo.start world p.run
    (Solo.run host 128 x).strand.result? = some 2 ∧
      (Solo.run host 128 x).world.now = 29500000000 ∧ rolls (Solo.trail host 128 x) = 1 ∧
      ∃ checks rounds y, Solo.trail host 128 x = checks ++ rounds ∧
        p.Readies world.point checks true y ∧
        p.Rounds 0 y rounds 2 (Solo.run host 128 x).world.point := by
  intro p host words deviation world x
  have hresult : (Solo.run host 128 x).strand.result? = some 2 := by decide +kernel
  have hnow : (Solo.run host 128 x).world.now = 29500000000 := by decide +kernel
  rcases run_keeps_schedule p host rfl world 128 2 hresult with
    ⟨⟨checks, ready, rounds, y, hdeeds, hready, hrounds, hnone⟩, -, -, -, -, hrolls⟩
  cases ready with
  | false => exact absurd (hnone (.inl rfl)).2.1 (by decide)
  | true => exact ⟨hresult, hnow, hrolls _ rfl, checks, rounds, y, hdeeds, hready, hrounds rfl⟩

end Plan
end Activity
end TxWorkload
