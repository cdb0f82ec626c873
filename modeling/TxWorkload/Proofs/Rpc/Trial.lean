import TxWorkload.Proofs.Routine.Adequacy
import TxWorkload.Proofs.Rpc.Attempt
import TxWorkload.Rpc.Client

/-!
# Trial — the attempts of a call

A call posts one envelope again and again, until an exchange brings a response or no attempt is
left. What every attempt brings is fixed by the host and by the number of the attempt, and so are
the times of all posts and pauses: there is a pause behind an attempt if it failed on the way and is
not the last one.
-/

namespace TxWorkload
namespace Rpc

open Routine

/-! ## Exchanges -/

/-- Whether an exchange brings a response: its status is 200 and its body can be read. -/
def Decodes (e : Exchange) (r : Response) : Prop :=
  ∃ body, e = .answered 200 body ∧ Response.read body = .ok r

/-- Whether a post failed on the way. -/
def Exchange.fails : Exchange → Bool
  | .failed _ => true
  | .answered _ _ => false

theorem Decodes.unique {e : Exchange} {r r' : Response} (h : Decodes e r) (h' : Decodes e r') :
    r = r' := by
  rcases h with ⟨body, rfl, hread⟩
  rcases h' with ⟨body', ⟨⟩, hread'⟩
  exact Except.ok.inj (hread.symm.trans hread')

theorem response_eq_ok {e : Exchange} {url : String} {r : Response} :
    e.response url = .ok r ↔ Decodes e r := by
  cases e with
  | failed reason =>
      constructor
      · intro h
        cases h
      · rintro ⟨body, h, -⟩
        cases h
  | answered status body =>
      unfold Exchange.response
      by_cases hstatus : status = Exchange.okStatus
      · simp only [hstatus, if_true]
        constructor
        · intro h
          split at h
          · rename_i hread
            cases h
            exact ⟨body, rfl, hread⟩
          · cases h
        · rintro ⟨body', ⟨⟩, hread⟩
          rw [hread]
      · simp only [hstatus, if_false]
        constructor
        · intro h
          cases h
        · rintro ⟨body', ⟨⟩, -⟩
          exact absurd rfl hstatus

theorem not_decodes_of_error {e : Exchange} {url : String} {cause : Error}
    (h : e.response url = .error cause) (r : Response) : ¬ Decodes e r := by
  intro hr
  have hok : e.response url = .ok r := response_eq_ok.2 hr
  cases h.symm.trans hok

/-- Only a post that failed on the way is worth waiting for. -/
theorem isRetryable_response {e : Exchange} {url : String} {cause : Error}
    (h : e.response url = .error cause) : cause.isRetryable = e.fails := by
  cases e with
  | failed reason =>
      cases h
      rfl
  | answered status body =>
      simp only [Exchange.response] at h
      split at h
      · split at h
        · cases h
        · cases h
          rfl
      · cases h
        rfl

/-! ## Trials -/

/-- What decides how a call goes: the settings, the envelope and where it is posted, the host, the
posts that were made before, and the time. -/
structure Trial where
  retry : Retry
  post : Post
  host : Host posts
  past : List Post
  start : Nat

namespace Trial

variable (t : Trial)

/-- The greatest number of attempts; there is always one. -/
def limit : Nat :=
  max 1 t.retry.maxAttempts.toNat

/-- The reply to an attempt, counted from zero: all earlier ones posted the same. -/
def reply (k : Nat) : Reply Exchange :=
  t.host.transport (List.replicate k t.post ++ t.past) t.post

/-- How an attempt goes. -/
def exchange (k : Nat) : Exchange :=
  (t.reply k).answer

/-- The outcome of an attempt. -/
def response (k : Nat) : Except Error Response :=
  (t.exchange k).response t.post.url

/-- Whether there is a pause behind an attempt. -/
def pauses (k : Nat) : Bool :=
  (t.exchange k).fails && decide (k + 1 < t.limit)

/-- The pause behind an attempt. -/
def pause (k : Nat) : Duration :=
  t.retry.delayFor (.ofNat k)

/-- The end of an attempt that begins at a time. -/
def arrives (k now : Nat) : Nat :=
  t.host.clock.deadline now ((t.reply k).delay.getD (.ofSecs 0))

/-- The time of a post. -/
def begins : Nat → Nat
  | 0 => t.start
  | k + 1 =>
      let ended := t.arrives k (begins k)
      if t.pauses k then t.host.clock.deadline ended (t.pause k) else ended

/-- The time of the reply to a post. -/
def ends (k : Nat) : Nat :=
  t.arrives k (t.begins k)

/-- A post, and the pause behind it if there is one. -/
def waits (k : Nat) : List (Nat × Act posts) :=
  (t.begins k, .asks t.post) :: if t.pauses k then [(t.ends k, .sleeps (t.pause k))] else []

/-- The posts and pauses of a number of attempts. -/
def schedule (made : Nat) : List (Nat × Act posts) :=
  (List.range made).flatMap t.waits

/-- What was done, and when. -/
def timed (deeds : List (Deed posts)) : List (Nat × Act posts) :=
  deeds.map fun deed => (deed.time, deed.act)

theorem timed_append (deeds more : List (Deed posts)) :
    timed (deeds ++ more) = timed deeds ++ timed more :=
  List.map_append

variable {t}

/-! ## One attempt -/

variable {k : Nat} {w : World posts}

/-- A world in which a number of attempts have been made. -/
structure Stands (t : Trial) (k : Nat) (w : World posts) : Prop where
  past : w.past = List.replicate k t.post ++ t.past
  now : w.now = t.begins k

theorem evaluates_post (hw : t.Stands k w) (hdelay : (t.reply k).delay ≠ none) :
    ∃ w₁, (Rpc.post t.post.url t.post.request).Evaluates t.host w
        (w.deeds (some (.asks t.post))) (t.response k) w₁ ∧
      w₁.past = List.replicate (k + 1) t.post ++ t.past ∧ w₁.now = t.ends k := by
  have hreply : t.host.transport w.past t.post = t.reply k := by rw [hw.past]; rfl
  rcases Option.ne_none_iff_exists'.1 hdelay with ⟨delay, hdelay⟩
  have hdue : (w.begin t.host (.reply t.post : Wait posts Exchange)).2.due = some (t.ends k) := by
    simp only [World.begin, hreply, hdelay, Option.map_some, hw.now, ends, arrives,
      Option.getD_some]
  rcases exists_awaited hdue with ⟨w₁, hawaited, hnow, hpast, -⟩
  have hle : w.now ≤ t.ends k := by
    rw [hw.now]
    exact t.host.clock.le_deadline _ _
  refine ⟨w₁, ?_, ?_, ?_⟩
  · have hask : (ask t.post : Routine posts Exchange).Evaluates t.host w
        (w.deeds (some (.asks t.post))) (t.exchange k) w₁ :=
      evaluates_await.2 ⟨hawaited, congrArg Reply.answer hreply.symm, rfl⟩
    exact evaluates_bind.2
      ⟨_, w₁, _, [], hask, evaluates_pure.2 ⟨rfl, rfl, rfl⟩, (List.append_nil _).symm⟩
  · rw [hpast, List.replicate_succ, List.cons_append, ← hw.past]
    rfl
  · rw [hnow, Nat.max_eq_right hle]

/-- There is a pause behind a failure that is worth waiting for and not the last one. -/
theorem pauses_of_error {cause : Error} (hcause : t.response k = .error cause) :
    t.pauses k = (cause.isRetryable && decide (k + 1 < t.limit)) := by
  rw [pauses, isRetryable_response hcause]

/-- One attempt: it brings a response, or leads on to the next one, or was the last one. -/
theorem evaluates_attempt (hk : k < t.limit) (hw : t.Stands k w)
    (hdelay : (t.reply k).delay ≠ none) :
    ∃ deeds w₁, (attempt t.retry (fun _ => Rpc.post t.post.url t.post.request)
        (.ofNat k)).Evaluates t.host w deeds (turnAfter t.retry k (t.response k)) w₁ ∧
      timed deeds = t.waits k ∧ t.Stands (k + 1) w₁ := by
  rcases evaluates_post hw hdelay with ⟨w₁, hpost, hpast, hnow⟩
  let op : UInt32 → Routine posts (Except Error Response) :=
    fun _ => Rpc.post t.post.url t.post.request
  cases hresponse : t.response k with
  | ok r =>
      have hpauses : t.pauses k = false := by
        rcases response_eq_ok.1 hresponse with ⟨body, hbody, -⟩
        simp [pauses, hbody, Exchange.fails]
      rw [hresponse] at hpost
      refine ⟨_, w₁, evaluates_attempt_ok op hpost, ?_, hpast, ?_⟩
      · simp only [waits, hpauses, Bool.false_eq_true, if_false, ← hw.now]
        rfl
      · rw [hnow, begins, hpauses]
        rfl
  | error e =>
      have hpauses : pausesAfter t.retry.limit k e = t.pauses k := (pauses_of_error hresponse).symm
      rw [hresponse] at hpost
      rcases evaluates_attempt_error op hk hpost with ⟨w₂, hattempt, hrecovers⟩
      refine ⟨_, w₂, hattempt, ?_, hrecovers.past.trans hpast, ?_⟩
      · rw [timed_append, rest, hpauses, waits, ← hw.now, ← hnow]
        split <;> rfl
      · rw [hrecovers.now, hpauses, hnow]
        rfl

/-! ## All attempts -/

/-- How a trial ends: with the response of the last attempt made, or after all attempts. -/
structure Outcome (t : Trial) (k : Nat) (outcome : Except Error Response) : Prop where
  lt : k < t.limit
  /-- No earlier attempt brought a response. -/
  earlier : ∀ j < k, ∀ r, ¬ Decodes (t.exchange j) r
  last : match outcome with
    | .ok r => Decodes (t.exchange k) r
    | .error _ => k + 1 = t.limit ∧ ∀ r, ¬ Decodes (t.exchange k) r

theorem outcome_of_endsAt (h : EndsAt t.retry t.response k) : t.Outcome k (t.response k) := by
  refine ⟨h.lt, ?_, ?_⟩
  · intro j hj r
    rcases h.earlier j hj with ⟨e, he⟩
    exact not_decodes_of_error he r
  · cases hresponse : t.response k with
    | ok r => exact response_eq_ok.1 hresponse
    | error e =>
        refine ⟨Nat.le_antisymm h.lt (Nat.le_of_not_lt fun hnext => ?_),
          not_decodes_of_error hresponse⟩
        rcases h.last hnext with ⟨r, hr⟩
        cases hr.symm.trans hresponse

/-- Attempts are made until one brings a response or none is left. -/
theorem evaluates_withRetry (hdelay : ∀ k < t.limit, (t.reply k).delay ≠ none)
    (hw : t.Stands 0 w) :
    ∃ k deeds w₁, (withRetry t.retry fun _ => Rpc.post t.post.url t.post.request).Evaluates t.host w
        deeds (t.response k) w₁ ∧
      t.Outcome k (t.response k) ∧ t.Stands (k + 1) w₁ ∧ timed deeds = t.schedule (k + 1) := by
  have hattempts : Attempts t.host t.retry (fun _ => Rpc.post t.post.url t.post.request) t.response
      t.Stands (fun deed => (deed.time, deed.act)) t.waits :=
    fun k _ hk _ hw => evaluates_attempt hk hw (hdelay k hk)
  rcases exists_withRetry hattempts hw with ⟨k, deeds, w₁, htried, hends, hstands, htimed⟩
  exact ⟨k, deeds, w₁, htried, outcome_of_endsAt hends, hstands, htimed⟩

end Trial

/-! ## Calls -/

/-- The trial of a call that has drawn its identifier. -/
def trialOf (r : Retry) (c : Call) (host : Host posts) (world : World posts) (id : UInt64) :
    Trial where
  retry := r
  post :=
    { url := c.url
      request :=
        { method := c.method
          params := match c.params with
            | .null => .array []
            | params => params
          id := id } }
  host := host
  past := world.past
  start := world.now

theorem envelope_eq (r : Retry) (c : Call) (host : Host posts) (world : World posts)
    (id : UInt64) :
    Request.envelope c.method c.params id = (trialOf r c host world id).post.request := by
  unfold Request.envelope trialOf
  cases c.params <;> rfl

/-- A call ends as its trial does. -/
theorem evaluates_call {r : Retry} {c : Call} {host : Host posts} {world : World posts}
    {id : UInt64} {rest : Random.Supply} {t : Trial} (ht : t = trialOf r c host world id)
    (hid : Random.pick 1 1000 world.supply = .value id rest)
    (hdelay : ∀ k < t.limit, (t.reply k).delay ≠ none) :
    ∃ k outcome deeds w₁, (call r c).Evaluates host world deeds outcome.toOption w₁ ∧
      t.Outcome k outcome ∧ t.Stands (k + 1) w₁ ∧ Trial.timed deeds = t.schedule (k + 1) := by
  have hstands : t.Stands 0 { world with supply := rest } := by
    subst ht
    exact ⟨rfl, rfl⟩
  have hdrawn : (draw (Random.pick Request.idRange.1 Request.idRange.2) :
      Routine posts UInt64).Evaluates host world [] id { world with supply := rest } := by
    refine evaluates_act.2 ⟨?_, rfl⟩
    simp only [World.perform]
    rw [show Random.pick Request.idRange.1 Request.idRange.2 = Random.pick 1 1000 from rfl, hid]
  rcases Trial.evaluates_withRetry hdelay hstands with
    ⟨k, deeds, w₁, htried, houtcome, hstands', htimed⟩
  refine ⟨k, t.response k, deeds, w₁, ?_, houtcome, hstands', htimed⟩
  subst ht
  rw [← envelope_eq r c host world id] at htried
  refine evaluates_bind.2 ⟨id, _, [], deeds, hdrawn, ?_, rfl⟩
  exact evaluates_bind.2 ⟨_, w₁, deeds, [], htried, evaluates_pure.2 ⟨rfl, rfl, rfl⟩,
    (List.append_nil _).symm⟩

/-- A call gives a response if and only if one of its attempts brings one, and then it is that of
the first such attempt, whose post is the last one. Otherwise all attempts are made. All posts are
the same, and the posts and pauses come at the times of the schedule. -/
theorem call_tries_in_order (retry : Retry) (c : Call) (host : Host posts) (world : World posts)
    (id : UInt64) (rest : Random.Supply)
    (hid : Random.pick 1 1000 world.supply = .value id rest)
    (hreplies : ∀ k < (trialOf retry c host world id).limit,
      ((trialOf retry c host world id).reply k).delay ≠ none) :
    let t := trialOf retry c host world id
    ∃ n response,
      let x := Solo.run host n (Solo.start world (call retry c))
      let deeds := Solo.trail host n (Solo.start world (call retry c))
      x.strand.result? = some response ∧
      (response.isSome = true ↔ ∃ k < t.limit, ∃ r, Decodes (t.exchange k) r) ∧
      (∀ k < t.limit, ∀ r, Decodes (t.exchange k) r → (∀ j < k, ∀ r, ¬ Decodes (t.exchange j) r) →
        response = some r ∧ x.world.past = List.replicate (k + 1) t.post ++ world.past ∧
          Trial.timed deeds = t.schedule (k + 1)) ∧
      ((∀ k < t.limit, ∀ r, ¬ Decodes (t.exchange k) r) →
        response = none ∧ x.world.past = List.replicate t.limit t.post ++ world.past ∧
          Trial.timed deeds = t.schedule t.limit) := by
  intro t
  rcases evaluates_call rfl hid hreplies with
    ⟨made, outcome, deeds, w₁, hcall, houtcome, hstands, hdeeds⟩
  rcases Solo.exists_run_of_evaluates hcall with ⟨n, hrun, htrail⟩
  refine ⟨n, outcome.toOption, ?_⟩
  dsimp only
  rw [hrun, htrail]
  rcases houtcome with ⟨hmade, hearlier, hlast⟩
  cases outcome with
  | ok r =>
      have hr : Decodes (t.exchange made) r := hlast
      refine ⟨rfl, ⟨fun _ => ⟨made, hmade, r, hr⟩, fun _ => rfl⟩, ?_, ?_⟩
      · intro k hk r' hr' hnone
        -- The first attempt that brings a response is the one that was made last.
        have hfirst : k = made := by
          rcases Nat.lt_trichotomy k made with hlt | heq | hgt
          · exact absurd hr' (hearlier k hlt r')
          · exact heq
          · exact absurd hr (hnone made hgt r)
        subst hfirst
        exact ⟨congrArg some (hr.unique hr'), hstands.past, hdeeds⟩
      · intro hnone
        exact absurd hr (hnone made hmade r)
  | error e =>
      rcases hlast with ⟨hall, hnone⟩
      have hnever : ∀ k < t.limit, ∀ r, ¬ Decodes (t.exchange k) r := by
        intro k hk
        rcases Nat.lt_or_eq_of_le (Nat.le_of_lt_succ (hall ▸ hk)) with hlt | rfl
        · exact hearlier k hlt
        · exact hnone
      refine ⟨rfl, ⟨fun h => absurd h Bool.false_ne_true, ?_⟩, ?_, fun _ => ⟨rfl, ?_, ?_⟩⟩
      · rintro ⟨k, hk, r, hr⟩
        exact absurd hr (hnever k hk r)
      · intro k hk r hr _
        exact absurd hr (hnever k hk r)
      · rw [← hall]
        exact hstands.past
      · rw [← hall]
        exact hdeeds

/-- The first post fails on the way, the second has another status, and the third brings an error of
the endpoint. -/
theorem call_tries_in_order_thrice :
    let c : Call := ⟨"http://one", blockNumber, .null⟩
    let retry : Retry := { maxAttempts := 4 }
    let host : Host posts :=
      { transport := fun past _ => match past with
          | [] => { answer := .failed "connection refused", delay := some (.ofSecs 2) }
          | [_] => { answer := .answered 500 [] }
          | _ => { answer := .answered 200 ("[null,null,null,true]".toList.map Json.byte) } }
    let world : World posts := { supply := [0] }
    let post : Post := ⟨"http://one", ⟨blockNumber, .array [], 1⟩⟩
    ∃ n,
      let x := Solo.run host n (Solo.start world (call retry c))
      x.strand.result? = some (some { error := some (.bool true) }) ∧
        x.world.past = [post, post, post] ∧
        Trial.timed (Solo.trail host n (Solo.start world (call retry c))) =
          [(0, .asks post), (2000000000, .sleeps (.ofSecs 1)), (3000000000, .asks post),
            (3000000000, .asks post)] := by
  intro c retry host world post
  let t := trialOf retry c host world 1
  have hreplies : ∀ k < t.limit, (t.reply k).delay ≠ none := by
    rintro (_ | _ | k) _ h
    · cases h
    · cases h
    · cases h
  rcases call_tries_in_order retry c host world 1 [] rfl hreplies with
    ⟨n, response, hresult, -, hfirst, -⟩
  have hread : Response.read ("[null,null,null,true]".toList.map Json.byte) =
      .ok { error := some (.bool true) } := by cbv
  have hearlier : ∀ j < 2, ∀ r, ¬ Decodes (t.exchange j) r := by
    rintro (_ | _ | j) hj r ⟨body, h, -⟩
    · cases h
    · cases h
    · omega
  rcases hfirst 2 (by decide) _ ⟨_, rfl, hread⟩ hearlier with ⟨rfl, hpast, hdeeds⟩
  have hpauses : t.pauses 0 = true ∧ t.pauses 1 = false ∧ t.pauses 2 = false := by decide +kernel
  have hpause : t.pause 0 = .ofSecs 1 := by decide +kernel
  have htimes : t.begins 0 = 0 ∧ t.ends 0 = 2000000000 ∧ t.begins 1 = 3000000000 ∧
      t.begins 2 = 3000000000 := by decide +kernel
  have hschedule : t.schedule 3 =
      [(t.begins 0, .asks t.post), (t.ends 0, .sleeps (t.pause 0)), (t.begins 1, .asks t.post),
        (t.begins 2, .asks t.post)] := by
    simp [Trial.schedule, Trial.waits, List.range_succ, hpauses]
  rw [hpause, htimes.1, htimes.2.1, htimes.2.2.1, htimes.2.2.2] at hschedule
  exact ⟨n, hresult, hpast, hdeeds.trans hschedule⟩

end Rpc
end TxWorkload
