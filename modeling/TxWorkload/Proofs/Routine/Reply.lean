import TxWorkload.Proofs.Routine.Outcome

/-!
# Reply — questions and their replies

A reply comes when it is due, and may cancel the run. In a race against cancellation it arrives if
it comes at once or before the run is cancelled. Work that races goes on from one reply that arrives
to the next one, and is cut short by the first that does not; between replies nothing can cut it
short.
-/

namespace TxWorkload
namespace Routine

variable {S : Signature} {α β : Type} {host : Host S} {w w₁ w' : World S}

/-! ## Replies -/

/-- The world in which a request has been sent and a wait for its reply is over. -/
def World.heard (w : World S) (request : S.Request) (moment : Nat) (token : Bool) : World S :=
  { w with
    now := moment
    cancelled := token
    past := request :: w.past
    journal := ⟨w.now, .sent request⟩ :: w.journal
    tickets := w.tickets + 1 }

/-- A reply may cancel the run, and does nothing else. -/
theorem World.deliver_eq (w : World S) (pending : Pending β) :
    w.deliver pending = { w with cancelled := w.cancelled || pending.cancels } := by
  unfold deliver
  cases pending.cancels with
  | true => simp
  | false => simp

/-- A reply that is awaited comes when it is due; meanwhile nothing else happens than that the run
may be cancelled. -/
theorem Awaited.heard {request : S.Request} (h : Awaited host w (.reply request) w₁) :
    ∃ d, (host.transport w.past request).delay = some d ∧
      w₁ = w.heard request (host.clock.deadline w.now d) w₁.cancelled := by
  have hdue : ∀ {t}, (w.begin host (.reply request)).2.due = some t →
      ∃ d, (host.transport w.past request).delay = some d ∧ host.clock.deadline w.now d = t :=
    fun h => Option.map_eq_some_iff.1 h
  cases h with
  | atOnce hend h =>
      rcases hdue hend with ⟨d, hdelay, rfl⟩
      have hnow : host.clock.deadline w.now d = w.now :=
        Nat.le_antisymm h (host.clock.le_deadline w.now d)
      refine ⟨d, hdelay, ?_⟩
      rw [hnow, World.deliver_eq]
      rfl
  | later hend h =>
      rcases hdue hend with ⟨d, hdelay, rfl⟩
      refine ⟨d, hdelay, ?_⟩
      rw [World.deliver_eq]
      rfl

/-- A question, and what follows its answer. -/
theorem heard_of_ask_bind {request : S.Request} {k : S.Answer → Routine S α} {a : α}
    (h : (ask request >>= k).ComesTo host w a w') :
    ∃ d token, (host.transport w.past request).delay = some d ∧
      (k (host.transport w.past request).answer).ComesTo host
        (w.heard request (host.clock.deadline w.now d) token) a w' := by
  rcases comesTo_bind.1 h with ⟨answer, w₁, hawait, h⟩
  rcases comesTo_await.1 hawait with ⟨hawaited, rfl⟩
  rcases hawaited.heard with ⟨d, hdelay, hw₁⟩
  rw [hw₁] at h
  exact ⟨d, w₁.cancelled, hdelay, h⟩

/-- A question whose reply comes is answered, whether the run is cancelled meanwhile or not. -/
theorem exists_comesTo_ask_bind {request : S.Request} {k : S.Answer → Routine S α} {d : Duration}
    (hdelay : (host.transport w.past request).delay = some d)
    (h : ∀ token, ∃ a w', (k (host.transport w.past request).answer).ComesTo host
      (w.heard request (host.clock.deadline w.now d) token) a w') :
    ∃ a w', (ask request >>= k).ComesTo host w a w' := by
  have hdue : (w.begin host (.reply request)).2.due = some (host.clock.deadline w.now d) :=
    Option.map_eq_some_iff.2 ⟨d, hdelay, rfl⟩
  rcases exists_awaited hdue with ⟨w₁, hawaited, -⟩
  rcases hawaited.heard with ⟨d', hdelay', hw₁⟩
  cases hdelay.symm.trans hdelay'
  rcases h w₁.cancelled with ⟨a, w', ha⟩
  rw [← hw₁] at ha
  exact ⟨a, w', comesTo_bind.2 ⟨_, w₁, comesTo_await.2 ⟨hawaited, rfl⟩, ha⟩⟩

/-- What is heard in a race against cancellation is what would have been awaited. -/
theorem Raced.awaited {what : Wait S β} {b : β} (h : Raced host w what (some b) w₁) :
    Awaited host w what w₁ ∧ b = (w.begin host what).2.answer := by
  cases h with
  | atOnce hdue h => exact ⟨.atOnce hdue h, rfl⟩
  | @inTime d hw hdue h hcancel =>
      -- Time that passes before the cancellation passes as it does without a race.
      have hpassed : ({ (w.begin host what).1 with now := d, cancelled := false } : World S) =
          (w.begin host what).1.passTo host d := by
        unfold World.passTo
        rw [World.cancelled_begin, hw]
        cases ht : host.cancelAt with
        | none => rfl
        | some t =>
            have hbefore : decide (t ≤ d) = false := decide_eq_false (Nat.not_le.2 (hcancel t ht))
            simp only [hbefore, Bool.or_false]
      refine ⟨?_, rfl⟩
      rw [Solo.delivery, hpassed]
      exact .later hdue h

/-- Whether a reply to a request that is sent at some moment comes in a race against cancellation:
it comes at once, or before the run is cancelled. -/
def Arrives (host : Host S) (now : Nat) (cancelled : Bool) (reply : Reply S.Answer)
    (d : Duration) : Prop :=
  reply.delay = some d ∧ (host.clock.deadline now d ≤ now ∨
    cancelled = false ∧ ∀ t, host.cancelAt = some t → host.clock.deadline now d < t)

/-- A reply that comes is heard, and may itself cancel the run. -/
theorem raced_reply {request : S.Request} {b : S.Answer} :
    Raced host w (.reply request) (some b) w₁ ↔
      ∃ d, Arrives host w.now w.cancelled (host.transport w.past request) d ∧
        b = (host.transport w.past request).answer ∧
        w₁ = w.heard request (host.clock.deadline w.now d)
          (w.cancelled || (host.transport w.past request).cancels) := by
  have hdue : ∀ {t}, (w.begin host (.reply request)).2.due = some t ↔
      ∃ d, (host.transport w.past request).delay = some d ∧ host.clock.deadline w.now d = t :=
    Option.map_eq_some_iff
  constructor
  · intro h
    cases h with
    | atOnce hend h =>
        rcases hdue.1 hend with ⟨d, hdelay, rfl⟩
        have hnow := Nat.le_antisymm h (host.clock.le_deadline w.now d)
        refine ⟨d, ⟨hdelay, .inl h⟩, rfl, ?_⟩
        rw [hnow, World.deliver_eq]
        rfl
    | inTime hw hend hlater hcancel =>
        rcases hdue.1 hend with ⟨d, hdelay, rfl⟩
        refine ⟨d, ⟨hdelay, .inr ⟨hw, hcancel⟩⟩, rfl, ?_⟩
        rw [Solo.delivery, World.deliver_eq, hw]
        rfl
  · rintro ⟨d, ⟨hdelay, harrives⟩, rfl, rfl⟩
    have hend := hdue.2 ⟨d, hdelay, rfl⟩
    -- A reply that takes no time is heard even in a cancelled run; any other one has to be first.
    rcases Nat.eq_or_lt_of_le (host.clock.le_deadline w.now d) with hnow | hlater
    · have honce := Raced.atOnce hend (Nat.le_of_eq hnow.symm)
      rw [World.deliver_eq] at honce
      rw [← hnow]
      exact honce
    · rcases harrives with honce | ⟨hw, hcancel⟩
      · exact absurd honce (Nat.not_le.2 hlater)
      · have hinTime := Raced.inTime hw hend hlater hcancel
        rw [Solo.delivery, World.deliver_eq] at hinTime
        rw [hw]
        exact hinTime

/-- A reply that is missed has been asked for, and the run is cancelled. -/
theorem Raced.missed {request : S.Request} (h : Raced host w (.reply request) none w₁) :
    w₁ = w.heard request w₁.now true := by
  cases h with
  | tooLate hw h => simp only [World.begin, World.note, World.heard, hw]
  | cutOff hw hcancel h => rfl

/-- Work that is not cut short does what it would have done without the race. -/
theorem evaluates_of_guarded {p : Routine S α} {a : α} {deeds : List (Deed S)}
    (h : p.guarded.Evaluates host w deeds (some a) w') : p.Evaluates host w deeds a w' := by
  induction p generalizing w deeds w' with
  | done b =>
      rcases h with ⟨rfl, hb, rfl⟩
      exact ⟨rfl, Option.some.inj hb, rfl⟩
  | perform e next ih =>
      rcases h with ⟨b, w₁, rest, he, rfl, h⟩
      exact ⟨b, w₁, rest, he, rfl, ih b h⟩
  | wait what next ih =>
      rw [guarded] at h
      rcases h with ⟨answer, w₁, rest, hraced, rfl, h⟩
      cases answer with
      | none => cases h.2.1
      | some b =>
          rcases hraced.awaited with ⟨hawaited, rfl⟩
          exact ⟨w₁, rest, hawaited, rfl, ih _ h⟩
  | race what next ih =>
      rw [guarded] at h
      rcases h with ⟨answer, w₁, rest, hraced, rfl, h⟩
      cases answer with
      | none => cases h.2.1
      | some b => exact ⟨some b, w₁, rest, hraced, rfl, ih _ h⟩
  | loop s body next ihb ih =>
      rw [guarded] at h
      rcases h with ⟨answer, w₁, turns, rest, hturns, rfl, h⟩
      cases answer with
      | none => cases h.2.1
      | some b =>
          refine ⟨b, w₁, turns, rest, ?_, rfl, ih b h⟩
          clear h
          generalize hanswer : some b = answer at hturns
          -- No turn of a loop that has a result is cut short.
          induction hturns with
          | last hturn =>
              subst hanswer
              rcases evaluates_andThen.1 hturn with ⟨turn, w₂, before, _, hbody, hlast, rfl⟩
              rcases hlast with ⟨rfl, hturn, rfl⟩
              rw [List.append_nil]
              cases turn with
              | none => cases hturn
              | some turn =>
                  cases turn with
                  | inl s => cases hturn
                  | inr b' =>
                      cases hturn
                      exact .last (ihb _ hbody)
          | more hturn _ ihturns =>
              rcases evaluates_andThen.1 hturn with ⟨turn, w₂, before, _, hbody, hlast, rfl⟩
              rcases hlast with ⟨rfl, hturn, rfl⟩
              rw [List.append_nil]
              cases turn with
              | none => cases hturn
              | some turn =>
                  cases turn with
                  | inl s =>
                      cases hturn
                      exact .more (ihb _ hbody) (ihturns hanswer)
                  | inr b' => cases hturn

theorem comesTo_of_guarded {p : Routine S α} {a : α} (h : p.guarded.ComesTo host w (some a) w') :
    p.ComesTo host w a w' := by
  rcases comesTo_iff.1 h with ⟨deeds, h⟩
  exact comesTo_iff.2 ⟨deeds, evaluates_of_guarded h⟩

/-- The licence not to wait. -/
def swift : Licence S where
  effect _ := True
  wait _ _ _ := False
  loops := False

/-- What does not wait is never cut short. -/
theorem guarded_of_swift {p : Routine S α} (hp : p.Within swift) :
    p.guarded = p.andThen fun a => .done (some a) := by
  induction p with
  | done a => rfl
  | perform e next ih =>
      rw [guarded, andThen]
      congr 1
      funext b
      exact ih b (hp.2 b)
  | wait what next _ => cases hp.1
  | race what next _ => cases hp.1
  | loop s body next _ _ => cases hp.1

theorem comesTo_guarded_of_swift {p : Routine S α} {answer : Option α} (hp : p.Within swift) :
    p.guarded.ComesTo host w answer w' ↔ ∃ a, p.ComesTo host w a w' ∧ answer = some a := by
  rw [guarded_of_swift hp, comesTo_andThen]
  constructor
  · rintro ⟨a, w₁, ha, hdone⟩
    rcases comesTo_pure.1 hdone with ⟨rfl, rfl⟩
    exact ⟨a, ha, rfl⟩
  · rintro ⟨a, ha, rfl⟩
    exact ⟨a, w', ha, comesTo_pure.2 ⟨rfl, rfl⟩⟩

/-- A question that may be cut short, and what follows its answer. -/
theorem comesTo_guarded_ask_bind {request : S.Request} {k : S.Answer → Routine S α}
    {answer : Option α} :
    (ask request >>= k).guarded.ComesTo host w answer w' ↔
      (∃ d, Arrives host w.now w.cancelled (host.transport w.past request) d ∧
        (k (host.transport w.past request).answer).guarded.ComesTo host
          (w.heard request (host.clock.deadline w.now d)
            (w.cancelled || (host.transport w.past request).cancels)) answer w') ∨
        answer = none ∧ Raced host w (.reply request) none w' := by
  change (Routine.wait (.reply request) k).guarded.ComesTo host w answer w' ↔ _
  rw [guarded, comesTo_race]
  constructor
  · rintro ⟨reply, w₁, hraced, h⟩
    cases reply with
    | none =>
        rcases comesTo_pure.1 h with ⟨rfl, rfl⟩
        exact .inr ⟨rfl, hraced⟩
    | some b =>
        rcases raced_reply.1 hraced with ⟨d, harrives, rfl, rfl⟩
        exact .inl ⟨d, harrives, h⟩
  · rintro (⟨d, harrives, h⟩ | ⟨rfl, hraced⟩)
    · exact ⟨some _, _, raced_reply.2 ⟨d, harrives, rfl, rfl⟩, h⟩
    · exact ⟨none, w', hraced, comesTo_pure.2 ⟨rfl, rfl⟩⟩

end Routine
end TxWorkload
