import TxWorkload.Activity.Submission
import TxWorkload.Proofs.Routine.Solo

/-!
# Failover — who is asked, and what comes of it

A submission asks one endpoint after another. `Reached` tells how it comes to an endpoint: all
before it were asked, and their answers were delivered and held no hash. From there it ends in one
of four ways, or waits for ever; each of them fixes the calls, the counters and the lines.
-/

namespace TxWorkload
namespace Activity

open Routine (World Host Reply Level Solo)
open Routine.Solo (Path Delivered CutOff Stalled)

/-- A submission about to be made: in which surroundings, when, to whom and of what. -/
structure Submission where
  host : Host activities
  world : World activities
  endpoints : List Endpoint
  transaction : Transaction
  label : String

namespace Submission

variable (s : Submission)

/-! ## The course of a submission -/

/-- The submission before its first step. -/
def start : Solo activities (Option String) :=
  .start s.world (submit s.endpoints s.transaction s.label)

/-- What an endpoint is asked: the encoded transaction is the only parameter. -/
def question (endpoint : Endpoint) : Rpc.Call where
  url := endpoint.url
  method := "eth_sendTransaction"
  params := .array [s.transaction.encode]

/-- The requests when some endpoints have been asked, latest first. -/
def past (asked : List Endpoint) : List Rpc.Call :=
  (asked.map s.question).reverse ++ s.world.past

/-- The reply of an endpoint that is asked after some others. -/
def reply (asked : List Endpoint) (endpoint : Endpoint) : Reply (Option Rpc.Response) :=
  s.host.transport (s.past asked) (s.question endpoint)

/-- The hash that an endpoint gives, if the result in its answer is a text, with or without an
error. -/
def hash? (asked : List Endpoint) (endpoint : Endpoint) : Option String :=
  match (s.reply asked endpoint).answer with
  | some { result := some (.text hash), .. } => some hash
  | _ => none

/-- When an endpoint that is asked at `m` has its answer ready, if ever. -/
def due (asked : List Endpoint) (endpoint : Endpoint) (m : Nat) : Option Nat :=
  (s.reply asked endpoint).delay.map (s.host.clock.deadline m)

/-- The lines about responses without hash, in order. -/
def refusals (asked : List Endpoint) : List Endpoint → List (Level × String)
  | [] => []
  | endpoint :: rest =>
      ((s.reply asked endpoint).answer.map fun r => (Level.warn, refusal endpoint r)).toList ++
        refusals (asked ++ [endpoint]) rest

/-- The endpoints `asked` were passed over and `rest` remain, at the moment `m`; the last argument
tells whether the submission is cancelled then. -/
inductive Reached : List Endpoint → List Endpoint → Nat → Bool → Prop
  | start : Reached [] s.endpoints s.world.now s.world.cancelled
  | pass {asked rest : List Endpoint} {endpoint : Endpoint} {m m' : Nat}
      (h : Reached asked (endpoint :: rest) m false)
      (hd : Delivered s.host m (s.due asked endpoint m) m') (hn : s.hash? asked endpoint = none) :
      Reached (asked ++ [endpoint]) rest m' (s.reply asked endpoint).cancels

/-- The counters at the end: one more submission, which was accepted or not. -/
def counted (hash : Option String) : Stats.Counters :=
  { s.world.counters with
    total := s.world.counters.total + 1
    successful := s.world.counters.successful + if hash.isSome then 1 else 0
    failed := s.world.counters.failed + if hash.isSome then 0 else 1 }

/-- The submission ends at `m`, after asking certain endpoints, with a result and a last line. -/
def EndsWith (asked : List Endpoint) (m : Nat) (hash : Option String)
    (lines : List (Level × String)) : Prop :=
  ∃ n, let x := Solo.run s.host n s.start
    x.strand.result? = some hash ∧ x.world.past = s.past asked ∧ x.world.now = m ∧
      x.world.counters = s.counted hash ∧ x.world.lines = lines.reverse ++ s.world.lines

/-! ## What holds on the way -/

/-- Who has been asked so far: a beginning of the endpoints, each when all before it had been passed
over and nothing was cancelled yet. Nobody is about to be asked once the submission is cancelled. -/
structure Orderly (x : Solo activities (Option String)) : Prop where
  asked : ∃ asked, asked <+: s.endpoints ∧ x.world.past = s.past asked ∧
    ∀ before endpoint, before ++ [endpoint] <+: asked →
      ∃ after m, m ≤ x.world.now ∧ s.Reached before (endpoint :: after) m false
  free : Solo.asks x.strand = true → x.world.cancelled = false

variable {s} {asked rest : List Endpoint} {endpoint : Endpoint} {m m' : Nat} {c : Bool}

theorem Reached.endpoints (h : s.Reached asked rest m c) : s.endpoints = asked ++ rest := by
  induction h with
  | start => rfl
  | pass _ _ _ ih => simpa using ih

theorem Reached.earlier (h : s.Reached asked rest m c) {before : List Endpoint}
    (hb : before ++ [endpoint] <+: asked) :
    ∃ after m', m' ≤ m ∧ s.Reached before (endpoint :: after) m' false := by
  induction h with
  | start => simp at hb
  | pass h hd hn ih =>
      rcases List.prefix_concat_iff.1 hb with heq | hb
      · rcases List.append_singleton_inj.1 heq with ⟨rfl, rfl⟩
        exact ⟨_, _, hd.le, h⟩
      · rcases ih hb with ⟨after, m', hle, hr⟩
        exact ⟨after, m', Nat.le_trans hle hd.le, hr⟩

theorem Reached.orderly (h : s.Reached asked rest m c) {x : Solo activities (Option String)}
    (hpast : x.world.past = s.past asked) (hnow : m ≤ x.world.now)
    (hfree : Solo.asks x.strand = true → x.world.cancelled = false) : s.Orderly x := by
  refine ⟨⟨asked, ⟨rest, h.endpoints.symm⟩, hpast, fun before endpoint hb => ?_⟩, hfree⟩
  rcases h.earlier hb with ⟨after, m', hle, hr⟩
  exact ⟨after, m', Nat.le_trans hle hnow, hr⟩

theorem Reached.orderly_asked (h : s.Reached asked (endpoint :: rest) m false)
    {x : Solo activities (Option String)} (hpast : x.world.past = s.past (asked ++ [endpoint]))
    (hnow : m ≤ x.world.now) (hfree : Solo.asks x.strand = true → x.world.cancelled = false) :
    s.Orderly x := by
  refine ⟨⟨asked ++ [endpoint], ⟨rest, by simp [h.endpoints]⟩, hpast,
    fun before endpoint' hb => ?_⟩, hfree⟩
  rcases List.prefix_concat_iff.1 hb with heq | hb
  · rcases List.append_singleton_inj.1 heq with ⟨rfl, rfl⟩
    exact ⟨rest, m, hnow, h⟩
  · rcases h.earlier hb with ⟨after, m', hle, hr⟩
    exact ⟨after, m', Nat.le_trans hle hnow, hr⟩

/-! ## From endpoint to endpoint -/

/-- What follows the offers of a submission. -/
def note (hash : Option String) : Activity (Option String) := do
  Routine.mark (.submitted hash)
  return hash

/-- The submission before it asks the endpoints that remain. -/
def offering (s : Submission) (w : World activities) (rest : List Endpoint) :
    Solo activities (Option String) :=
  .start w ((offer s.transaction s.label rest).andThen note)

/-- The world of a submission that has come to an endpoint. -/
structure Heading (s : Submission) (asked : List Endpoint) (m : Nat) (c : Bool)
    (w : World activities) : Prop where
  now : w.now = m
  cancelled : w.cancelled = c
  past : w.past = s.past asked
  counters : w.counters = { s.world.counters with total := s.world.counters.total + 1 }
  lines : w.lines = (s.refusals [] asked).reverse ++ s.world.lines

/-- The last steps: one counter, one line and the mark at the end. -/
def concluding (counter : Stats.Counter) (level : Level) (text : String) (hash : Option String) :
    Activity (Option String) := do
  count counter
  Routine.log level text
  note hash

/-- The submission ends in a certain way, and all that happens on the way is orderly. -/
def Concludes (s : Submission) (x : Solo activities (Option String)) (asked : List Endpoint)
    (m : Nat) (hash : Option String) (lines : List (Level × String)) : Prop :=
  ∃ z, Path s.host s.Orderly x z ∧ z.step s.host = none ∧ z.strand.result? = some hash ∧
    z.world.past = s.past asked ∧ z.world.now = m ∧ z.world.counters = s.counted hash ∧
      z.world.lines = lines.reverse ++ s.world.lines

theorem Concludes.of_path {x y : Solo activities (Option String)} {hash : Option String}
    {lines : List (Level × String)} (h : Path s.host s.Orderly x y)
    (hy : s.Concludes y asked m hash lines) : s.Concludes x asked m hash lines := by
  rcases hy with ⟨z, hz, hend⟩
  exact ⟨z, h.trans hz, hend⟩

/-- The counter that a submission adds one to at its end. -/
def counter (hash : Option String) : Stats.Counter :=
  if hash.isSome then .successful else .failed

theorem concludes_concluding {w : World activities} {level : Level} {text : String}
    {hash : Option String} {lines : List (Level × String)}
    (horderly : ∀ w' strand, w'.past = w.past → w'.now = w.now → Solo.asks strand = false →
      s.Orderly ⟨w', strand⟩)
    (hpast : w.past = s.past asked) (hnow : w.now = m)
    (hcounters : w.counters = { s.world.counters with total := s.world.counters.total + 1 })
    (hlines : w.lines = lines.reverse ++ s.world.lines) :
    s.Concludes (.start w (concluding (counter hash) level text hash)) asked m hash
      (lines ++ [(level, text)]) := by
  refine ⟨_, .more (horderly _ _ rfl rfl rfl) rfl <| .more (horderly _ _ rfl rfl rfl) rfl <|
    .more (horderly _ _ rfl rfl rfl) rfl <| .here (horderly _ _ rfl rfl rfl),
    Solo.step_done, rfl, hpast, hnow, ?_, ?_⟩
  · change w.counters.set (counter hash) (w.counters.get (counter hash) + 1) = _
    rw [hcounters]
    cases hash <;> simp [counter, counted, Stats.Counters.set, Stats.Counters.get]
  · change (level, text) :: w.lines = _
    rw [hlines]
    simp

section

variable {w : World activities}

theorem Heading.orderly (hw : s.Heading asked m c w) (h : s.Reached asked rest m c)
    {w' : World activities} {strand : Routine.Strand activities (Option String)}
    (hpast : w'.past = w.past) (hnow : w'.now = w.now) (ha : Solo.asks strand = false) :
    s.Orderly ⟨w', strand⟩ :=
  h.orderly (hpast.trans hw.past) (Nat.le_of_eq (hnow.trans hw.now).symm) (by simp [ha])

/-- What a submission does with what it hears of an endpoint, if it hears anything before it is
cancelled. -/
def hearing (s : Submission) (endpoint : Endpoint) (rest : List Endpoint)
    (answer : Option (Option Rpc.Response)) : Activity (Option String) :=
  Routine.andThen (match answer with
    | none => do
        count .failed
        Routine.log .warn s!"❌ Transaction to {endpoint.name} abandoned on shutdown"
        return none
    | some none => offer s.transaction s.label rest
    | some (some response) =>
        match response.resultText? with
        | some hash => do
            count .successful
            Routine.log .info (acceptance endpoint s.transaction s.label hash)
            return some hash
        | none => do
            Routine.log .warn (refusal endpoint response)
            offer s.transaction s.label rest) note

/-- The request to an endpoint. -/
def request (s : Submission) (endpoint : Endpoint) :
    Routine.Wait activities (Option Rpc.Response) :=
  .reply (s.question endpoint)

theorem step_offering_cancelled (hw : w.cancelled = true) :
    Solo.step s.host (s.offering w (endpoint :: rest)) =
      some (.start w (s.hearing endpoint rest none)) :=
  Solo.step_perform (w.perform_checkpoint s.host hw)

theorem step_offering (hw : w.cancelled = false) :
    Solo.step s.host (s.offering w (endpoint :: rest)) =
      some (.start w (.race (s.request endpoint) (s.hearing endpoint rest))) := by
  refine (Solo.step_perform (w.perform_checkpoint s.host hw)).trans ?_
  change some (Solo.start w ((Routine.andThen
    (Routine.await (s.request endpoint)).guarded _).andThen note)) = _
  rw [Routine.guarded_await]
  rfl

theorem Heading.concludes_exhausted (hw : s.Heading asked m c w) (h : s.Reached asked [] m c) :
    s.Concludes (s.offering w []) asked m none
      (s.refusals [] asked ++ [(.error, "❌ Transaction failed on all endpoints")]) := by
  have hend : s.Concludes (.start w (concluding (counter none) .error
      "❌ Transaction failed on all endpoints" none)) asked m none _ :=
    concludes_concluding (fun _ _ => hw.orderly h) hw.past hw.now hw.counters hw.lines
  exact hend

theorem Heading.concludes_cancelled (hw : s.Heading asked m true w)
    (h : s.Reached asked (endpoint :: rest) m true) :
    s.Concludes (s.offering w (endpoint :: rest)) asked m none (s.refusals [] asked ++
      [(.warn, s!"❌ Transaction to {endpoint.name} abandoned on shutdown")]) := by
  have hend : s.Concludes (.start w (concluding (counter none) .warn
      s!"❌ Transaction to {endpoint.name} abandoned on shutdown" none)) asked m none _ :=
    concludes_concluding (fun _ _ => hw.orderly h) hw.past hw.now hw.counters hw.lines
  exact .of_path (.more (hw.orderly h rfl rfl rfl) (step_offering_cancelled hw.cancelled) <|
    .here (hw.orderly h rfl rfl rfl)) hend

/-! ### Asking -/

theorem past_append (asked : List Endpoint) (endpoint : Endpoint) :
    s.past (asked ++ [endpoint]) = s.question endpoint :: s.past asked := by
  simp [past]

theorem hash?_eq (asked : List Endpoint) (endpoint : Endpoint) :
    s.hash? asked endpoint = (s.reply asked endpoint).answer.bind Rpc.Response.resultText? := by
  unfold hash?
  cases (s.reply asked endpoint).answer with
  | none => rfl
  | some response =>
      rcases response with ⟨_, _, _ | value, _⟩
      · rfl
      · cases value <;> rfl

theorem refusals_append (before asked : List Endpoint) (endpoint : Endpoint) :
    s.refusals before (asked ++ [endpoint]) = s.refusals before asked ++
      ((s.reply (before ++ asked) endpoint).answer.map fun r =>
        (Level.warn, refusal endpoint r)).toList := by
  induction asked generalizing before with
  | nil => simp [refusals]
  | cons other asked ih => simp [refusals, ih]

theorem Heading.pending (hw : s.Heading asked m c w) (endpoint : Endpoint) :
    let pending := (w.begin s.host (s.request endpoint)).2
    pending.answer = (s.reply asked endpoint).answer ∧ pending.due = s.due asked endpoint m ∧
      pending.cancels = (s.reply asked endpoint).cancels := by
  simp [World.begin, request, reply, due, hw.past, hw.now]

theorem Heading.orderly_racing (hw : s.Heading asked m c w)
    (h : s.Reached asked (endpoint :: rest) m false) {m' : Nat} {c' : Bool} (hm : w.now ≤ m') :
    s.Orderly (Solo.racing s.host w (s.request endpoint) (s.hearing endpoint rest) m' c') := by
  refine h.orderly_asked ?_ (hw.now ▸ hm) (by simp [Solo.asks, Solo.racing])
  rw [past_append, ← hw.past]
  rfl

/-- The world in which the answer of an endpoint is delivered, before it is looked at. -/
theorem Heading.delivery (hw : s.Heading asked m false w) (endpoint : Endpoint) (m' : Nat) :
    let w' := Solo.delivery s.host w (s.request endpoint) m'
    w'.now = m' ∧ w'.cancelled = (s.reply asked endpoint).cancels ∧
      w'.past = s.past (asked ++ [endpoint]) ∧ w'.counters = w.counters ∧ w'.lines = w.lines := by
  have hcancels := (hw.pending endpoint).2.2
  simp only [Solo.delivery]
  refine ⟨World.now_deliver _ _, ?_, ?_, ?_, ?_⟩
  · simp [hcancels]
  · rw [World.past_deliver, past_append, ← hw.past]
    rfl
  · rw [World.counters_deliver]
    rfl
  · rw [World.lines_deliver]
    rfl

/-- The way to an answer that is delivered. -/
theorem Heading.path_delivery (hw : s.Heading asked m false w)
    (h : s.Reached asked (endpoint :: rest) m false)
    (hd : Delivered s.host m (s.due asked endpoint m) m')
    {z : Solo activities (Option String)}
    (hz : Path s.host s.Orderly (.start (Solo.delivery s.host w (s.request endpoint) m')
      (s.hearing endpoint rest (some (s.reply asked endpoint).answer))) z) :
    Path s.host s.Orderly (s.offering w (endpoint :: rest)) z := by
  rcases hw.pending endpoint with ⟨hanswer, hdue, -⟩
  refine .more (hw.orderly h rfl rfl rfl) (step_offering hw.cancelled) ?_
  refine Path.won m' hw.cancelled ?_ ?_ (fun _ _ hm => hw.orderly_racing h hm) ?_
  · rwa [hdue, hw.now]
  · exact h.orderly hw.past (Nat.le_of_eq hw.now.symm) fun _ => hw.cancelled
  · rwa [hanswer]

theorem asks_offer (rest : List Endpoint) :
    Solo.asks (.active ((offer s.transaction s.label rest).andThen note)) = false := by
  cases rest <;> rfl

/-- An endpoint that gives no hash is passed over. -/
theorem Heading.passes (hw : s.Heading asked m false w)
    (h : s.Reached asked (endpoint :: rest) m false)
    (hd : Delivered s.host m (s.due asked endpoint m) m') (hn : s.hash? asked endpoint = none) :
    ∃ w', Path s.host s.Orderly (s.offering w (endpoint :: rest)) (s.offering w' rest) ∧
      s.Heading (asked ++ [endpoint]) m' (s.reply asked endpoint).cancels w' := by
  rcases hw.delivery endpoint m' with ⟨hnow, hcancelled, hpast, hcounters, hlines⟩
  have hr := h.pass hd hn
  have horderly : ∀ w' strand, w'.past = s.past (asked ++ [endpoint]) → w'.now = m' →
      Solo.asks strand = false → s.Orderly ⟨w', strand⟩ := fun w' strand hpast hnow ha =>
    hr.orderly hpast (Nat.le_of_eq hnow.symm) (by simp [ha])
  -- Silence leaves no line behind, and a response without a hash leaves one.
  cases hanswer : (s.reply asked endpoint).answer with
  | none =>
      refine ⟨_, hw.path_delivery h hd ?_, ⟨hnow, hcancelled, hpast, ?_, ?_⟩⟩
      · rw [hanswer]
        exact .here (horderly _ _ hpast hnow (asks_offer rest))
      · rw [hcounters, hw.counters]
      · rw [hlines, hw.lines, refusals_append]
        simp [hanswer]
  | some response =>
      have hhash : response.resultText? = none := by
        simpa [hash?_eq, hanswer] using hn
      refine ⟨(Solo.delivery s.host w (s.request endpoint) m').note
        (.logged .warn (refusal endpoint response)), hw.path_delivery h hd ?_,
        ⟨hnow, hcancelled, hpast, ?_, ?_⟩⟩
      · rw [hanswer]
        have hhearing : s.hearing endpoint rest (some (some response)) =
            Routine.andThen (Routine.log .warn (refusal endpoint response)) fun _ =>
              (offer s.transaction s.label rest).andThen note := by
          simp only [hearing, hhash]
          rfl
        rw [hhearing]
        exact .more (horderly _ _ hpast hnow rfl) rfl
          (.here (horderly _ _ hpast hnow (asks_offer rest)))
      · change (Solo.delivery s.host w (s.request endpoint) m').counters = _
        rw [hcounters, hw.counters]
      · rw [World.lines_logged, hlines, hw.lines, refusals_append]
        simp [hanswer]

/-- An endpoint that gives a hash has accepted the transaction. -/
theorem Heading.concludes_accepted (hw : s.Heading asked m false w)
    (h : s.Reached asked (endpoint :: rest) m false)
    (hd : Delivered s.host m (s.due asked endpoint m) m') {hash : String}
    (hh : s.hash? asked endpoint = some hash) :
    s.Concludes (s.offering w (endpoint :: rest)) (asked ++ [endpoint]) m' (some hash)
      (s.refusals [] asked ++
        [(.info, acceptance endpoint s.transaction s.label hash)]) := by
  rcases hw.delivery endpoint m' with ⟨hnow, -, hpast, hcounters, hlines⟩
  rcases Option.bind_eq_some_iff.1 (hash?_eq asked endpoint ▸ hh) with ⟨response, hanswer, hhash⟩
  -- From the delivery on, the submission only books its success.
  have hend : s.Concludes (.start (Solo.delivery s.host w (s.request endpoint) m')
      (concluding (counter (some hash)) .info (acceptance endpoint s.transaction s.label hash)
        (some hash))) (asked ++ [endpoint]) m' (some hash) _ :=
    concludes_concluding (fun w' strand hp hn ha => h.orderly_asked (hp.trans hpast)
      (Nat.le_trans hd.le (Nat.le_of_eq (hn.trans hnow).symm)) (by simp [ha])) hpast hnow
        (hcounters.trans hw.counters) (hlines.trans hw.lines)
  have hhearing : s.hearing endpoint rest (some (some response)) =
      concluding (counter (some hash)) .info (acceptance endpoint s.transaction s.label hash)
        (some hash) := by
    simp only [hearing, hhash]
    rfl
  rcases hend with ⟨z, hz, hdone⟩
  refine ⟨z, hw.path_delivery h hd ?_, hdone⟩
  rwa [hanswer, hhearing]

/-- A request that is cut off ends the submission. -/
theorem Heading.concludes_cutOff (hw : s.Heading asked m false w)
    (h : s.Reached asked (endpoint :: rest) m false)
    (hd : CutOff s.host m (s.due asked endpoint m) m') :
    s.Concludes (s.offering w (endpoint :: rest)) (asked ++ [endpoint]) m' none
      (s.refusals [] asked ++
        [(.warn, s!"❌ Transaction to {endpoint.name} abandoned on shutdown")]) := by
  rcases hw.pending endpoint with ⟨-, hdue, -⟩
  have hpast : s.past (asked ++ [endpoint]) = (w.begin s.host (s.request endpoint)).1.past := by
    rw [past_append, ← hw.past]
    rfl
  -- From the cancellation on, the submission only books its failure.
  have hend : s.Concludes (.start
      { (w.begin s.host (s.request endpoint)).1 with now := m', cancelled := true }
      (concluding (counter none) .warn
        s!"❌ Transaction to {endpoint.name} abandoned on shutdown" none))
      (asked ++ [endpoint]) m' none _ :=
    concludes_concluding (fun w' strand hp hn ha => h.orderly_asked (hp.trans hpast.symm)
      (Nat.le_trans hd.le (Nat.le_of_eq hn.symm)) (by simp [ha])) hpast.symm rfl hw.counters
        hw.lines
  rcases hend with ⟨z, hz, hdone⟩
  refine ⟨z, .more (hw.orderly h rfl rfl rfl) (step_offering hw.cancelled) ?_, hdone⟩
  refine Path.lost m' hw.cancelled ?_ ?_ (fun _ _ hm => hw.orderly_racing h hm) hz
  · rwa [hdue, hw.now]
  · exact h.orderly hw.past (Nat.le_of_eq hw.now.symm) fun _ => hw.cancelled

end

/-! ## Whole submissions -/

theorem Reached.exists_heading (h : s.Reached asked rest m c) :
    ∃ w, Path s.host s.Orderly s.start (s.offering w rest) ∧ s.Heading asked m c w := by
  induction h with
  | start =>
      have horderly : ∀ w strand, w.past = s.world.past → w.now = s.world.now →
          Solo.asks strand = false → s.Orderly ⟨w, strand⟩ := fun w strand hpast hnow ha =>
        Reached.start.orderly hpast (Nat.le_of_eq hnow.symm) (by simp [ha])
      exact ⟨_, .more (horderly _ _ rfl rfl rfl) rfl <| .more (horderly _ _ rfl rfl rfl) rfl <|
        .here (horderly _ _ rfl rfl (asks_offer s.endpoints)), rfl, rfl, rfl, rfl, rfl⟩
  | pass h hd hn ih =>
      rcases ih with ⟨w, hpath, hw⟩
      rcases hw.passes h hd hn with ⟨w', hpath', hw'⟩
      exact ⟨w', hpath.trans hpath', hw'⟩

theorem Reached.endsWith (h : s.Reached asked rest m c) {asked' : List Endpoint} {m' : Nat}
    {hash : Option String} {lines : List (Level × String)}
    (hend : ∀ w, s.Heading asked m c w → s.Concludes (s.offering w rest) asked' m' hash lines) :
    s.EndsWith asked' m' hash lines := by
  rcases h.exists_heading with ⟨w, hpath, hw⟩
  rcases hend w hw with ⟨z, hz, -, hresult⟩
  rcases (hpath.trans hz).exists_run with ⟨n, rfl⟩
  exact ⟨n, hresult⟩

/-- A submission ends, unless an endpoint never answers and nothing cancels the submission. -/
theorem Reached.exists_end {w : World activities} (h : s.Reached asked rest m c)
    (hw : s.Heading asked m c w) :
    ∃ z, Path s.host s.Orderly (s.offering w rest) z ∧ z.step s.host = none ∧
      (z.strand.result?.isSome = true ∨ ∃ asked endpoint rest m,
        s.Reached asked (endpoint :: rest) m false ∧ Stalled s.host (s.due asked endpoint m)) := by
  have hdone : ∀ {x asked m hash lines}, s.Concludes x asked m hash lines →
      ∃ z, Path s.host s.Orderly x z ∧ z.step s.host = none ∧
        (z.strand.result?.isSome = true ∨ ∃ asked endpoint rest m,
          s.Reached asked (endpoint :: rest) m false ∧
            Stalled s.host (s.due asked endpoint m)) := by
    rintro x asked m hash lines ⟨z, hz, hend, hresult, -⟩
    exact ⟨z, hz, hend, .inl (by rw [hresult]; rfl)⟩
  -- Each endpoint that is left ends the submission, or is passed over, or stalls it.
  induction rest generalizing asked m c w with
  | nil => exact hdone (hw.concludes_exhausted h)
  | cons endpoint rest ih =>
      cases c with
      | true => exact hdone (hw.concludes_cancelled h)
      | false =>
          rcases Solo.exists_fate s.host m (s.due asked endpoint m) with
            ⟨m', hd⟩ | ⟨m', hd⟩ | hd
          · cases hh : s.hash? asked endpoint with
            | some hash => exact hdone (hw.concludes_accepted h hd hh)
            | none =>
                rcases hw.passes h hd hh with ⟨w', hpath, hw'⟩
                rcases ih (h.pass hd hh) hw' with ⟨z, hz, hend⟩
                exact ⟨z, hpath.trans hz, hend⟩
          · exact hdone (hw.concludes_cutOff h hd)
          · rcases hw.pending endpoint with ⟨-, hdue, -⟩
            have hstart : s.Orderly ⟨w, .active (.race (s.request endpoint)
                (s.hearing endpoint rest))⟩ :=
              h.orderly hw.past (Nat.le_of_eq hw.now.symm) fun _ => hw.cancelled
            obtain ⟨hz, hend⟩ := Path.stalled hw.cancelled (by rwa [hdue]) hstart
              (fun _ _ hm => hw.orderly_racing h hm)
            exact ⟨_, .more (hw.orderly h rfl rfl rfl) (step_offering hw.cancelled) hz, hend,
              .inr ⟨asked, endpoint, rest, m, h, hd⟩⟩

/-- How a submission fails over: endpoints are asked in order, one at a time and each at most once,
until one of them gives a hash. Each ending counts once as made and once as successful or failed,
and each response without hash gives one line. -/
structure FailsOver (s : Submission) : Prop where
  orderly : ∀ n, s.Orderly (Solo.run s.host n s.start)
  /-- Nobody is asked once the submission is cancelled. -/
  silent : ∀ n, (Solo.run s.host n s.start).world.cancelled = true →
    (Solo.run s.host (n + 1) s.start).world.past = (Solo.run s.host n s.start).world.past
  /-- The first hash that is delivered is the result, whatever else the reply does. -/
  accepted : ∀ asked endpoint rest m m' hash, s.Reached asked (endpoint :: rest) m false →
    Delivered s.host m (s.due asked endpoint m) m' → s.hash? asked endpoint = some hash →
    s.EndsWith (asked ++ [endpoint]) m' (some hash) (s.refusals [] asked ++
      [(.info, acceptance endpoint s.transaction s.label hash)])
  /-- If none holds a hash, all are asked. -/
  exhausted : ∀ m c, s.Reached s.endpoints [] m c → s.EndsWith s.endpoints m none
    (s.refusals [] s.endpoints ++ [(.error, "❌ Transaction failed on all endpoints")])
  /-- If a cancellation comes before an endpoint is asked, it is not asked. -/
  abandoned : ∀ asked endpoint rest m, s.Reached asked (endpoint :: rest) m true →
    s.EndsWith asked m none (s.refusals [] asked ++
      [(.warn, s!"❌ Transaction to {endpoint.name} abandoned on shutdown")])
  /-- If a cancellation comes while an endpoint is asked, it is the last one. -/
  cutOff : ∀ asked endpoint rest m m', s.Reached asked (endpoint :: rest) m false →
    CutOff s.host m (s.due asked endpoint m) m' →
    s.EndsWith (asked ++ [endpoint]) m' none (s.refusals [] asked ++
      [(.warn, s!"❌ Transaction to {endpoint.name} abandoned on shutdown")])
  ends : (∃ n, (Solo.run s.host n s.start).strand.result?.isSome = true) ∨
    ∃ asked endpoint rest m, s.Reached asked (endpoint :: rest) m false ∧
      Stalled s.host (s.due asked endpoint m)

/-- One path to the end of a submission tells of every step on the way. -/
theorem exists_path_end (s : Submission) :
    ∃ z, Path s.host s.Orderly s.start z ∧ z.step s.host = none ∧
      (z.strand.result?.isSome = true ∨ ∃ asked endpoint rest m,
        s.Reached asked (endpoint :: rest) m false ∧ Stalled s.host (s.due asked endpoint m)) := by
  rcases (Reached.start (s := s)).exists_heading with ⟨w, hpath, hw⟩
  rcases Reached.start.exists_end hw with ⟨z, hz, hend⟩
  exact ⟨z, hpath.trans hz, hend⟩

theorem orderly_run (s : Submission) (n : Nat) : s.Orderly (Solo.run s.host n s.start) := by
  rcases s.exists_path_end with ⟨z, hz, hend, -⟩
  exact hz.holds_run hend n

/-- The first endpoint that gives a hash decides a submission. -/
theorem submit_fails_over (s : Submission) : s.FailsOver where
  orderly := s.orderly_run
  silent n hcancelled := by
    refine Solo.past_run_succ (Bool.eq_false_iff.2 fun hasks => ?_)
    rw [(s.orderly_run n).free hasks] at hcancelled
    cases hcancelled
  accepted _ _ _ _ _ _ h hd hh := h.endsWith fun _ hw => hw.concludes_accepted h hd hh
  exhausted _ _ h := h.endsWith fun _ hw => hw.concludes_exhausted h
  abandoned _ _ _ _ h := h.endsWith fun _ hw => hw.concludes_cancelled h
  cutOff _ _ _ _ _ h hd := h.endsWith fun _ hw => hw.concludes_cutOff h hd
  ends := by
    rcases s.exists_path_end with ⟨z, hz, -, hresult⟩
    refine hresult.imp_left fun hresult => ?_
    rcases hz.exists_run with ⟨n, rfl⟩
    exact ⟨n, hresult⟩

/-- The first of two endpoints answers with an error, the second with a hash and an error, and its
answer cancels the submission. -/
theorem submit_fails_over_to_second :
    let first : Endpoint := ⟨"Validator", "http://one"⟩
    let second : Endpoint := ⟨"Sequencer", "http://two"⟩
    let s : Submission :=
      { host := { transport := fun past _ => match past with
          | [] => { answer := some { error := some (.text "busy") }, delay := some (.ofSecs 1) }
          | _ => { answer := some { result := some (.text "0x2a"), error := some (.text "late") }
                   cancels := true } }
        world := {}
        endpoints := [first, second]
        transaction := ⟨"0x01", "0x02", 7, 21000, 1, []⟩
        label := "transfer" }
    s.EndsWith [first, second] 1000000000 (some "0x2a")
      [(.warn, refusal first { error := some (.text "busy") }),
        (.info, acceptance second s.transaction "transfer" "0x2a")] := by
  intro first second s
  have hdelivered : Delivered s.host 0 (s.due [] first 0) 1000000000 :=
    ⟨1000000000, by decide, rfl, fun _ t ht => nomatch ht⟩
  have hfirst : s.Reached [first] [second] 1000000000 false :=
    Reached.start.pass hdelivered rfl
  exact (submit_fails_over s).accepted [first] second [] 1000000000 1000000000 "0x2a" hfirst
    ⟨1000000000, by decide, rfl, fun h => absurd h (Nat.lt_irrefl _)⟩ rfl

end Submission
end Activity
end TxWorkload
