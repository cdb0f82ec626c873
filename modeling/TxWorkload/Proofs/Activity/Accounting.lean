import TxWorkload.Proofs.Activity.Bystander
import TxWorkload.Proofs.Routine.Pact

/-!
# Accounting — every submission is booked once

A submission is booked as made when it begins, and as successful or failed before it ends. Between
two submissions the books are settled: the counters have grown by the numbers of submissions, and
these are told by the marks. The generation keeps the books whatever else goes on beside it, as long
as the others are bystanders.
-/

namespace TxWorkload
namespace Activity

open Routine

namespace Books

/-! ## Settled and fair books -/

/-- The number of submissions that have ended. -/
def ended (a : Books) : Nat :=
  a.accepted + a.rejected

/-- The submissions that are booked as made, but neither as successful nor as failed. -/
def balance (a : Books) : UInt64 :=
  a.total - a.successful - a.failed

/-- The books between two submissions: since the counters were as in `c`, all that was begun has
ended, and `sent` of it was not part of a burst that has ended. -/
structure Settled (c : Stats.Counters) (sent : Nat) (a : Books) : Prop where
  begun : a.begun = sent + a.inBursts
  ended : a.begun = a.ended
  total : a.total = c.total + .ofNat a.begun
  successful : a.successful = c.successful + .ofNat a.accepted
  failed : a.failed = c.failed + .ofNat a.rejected

/-- The balance of counters. -/
def balanceOf (c : Stats.Counters) : UInt64 :=
  c.total - c.successful - c.failed

/-- The books at any moment: at most one submission is on its way, and the balance has grown by at
most that one. -/
def Fair (c : Stats.Counters) (a : Books) : Prop :=
  a.begun = a.ended ∧ a.balance = balanceOf c ∨
    a.begun = a.ended + 1 ∧ (a.balance = balanceOf c ∨ a.balance = balanceOf c + 1)

variable {c : Stats.Counters} {sent : Nat} {a : Books}

/-- The counter that tells the outcome of a submission. -/
def outcome (hash : Option String) : Stats.Counter :=
  if hash.isSome then .successful else .failed

/-- The books when a submission has begun. -/
def opened (b : Books) : Books :=
  b.marked .submitting

/-- The books when it is booked as made. -/
def made (b : Books) : Books :=
  b.opened.counted .total

/-- The books when its outcome is booked. -/
def decided (b : Books) (hash : Option String) : Books :=
  b.made.counted (outcome hash)

/-- The books when it has ended. -/
def closed (b : Books) (hash : Option String) : Books :=
  (b.decided hash).marked (.submitted hash)

theorem Settled.balance (h : a.Settled c sent) : a.balance = balanceOf c := by
  rcases h with ⟨-, hended, htotal, hsuccessful, hfailed⟩
  rw [Books.balance, htotal, hsuccessful, hfailed, hended, balanceOf, Books.ended,
    UInt64.ofNat_add]
  grind

theorem Settled.fair (h : Settled c sent a) : Fair c a :=
  .inl ⟨h.ended, h.balance⟩

theorem Settled.fair_opened (h : Settled c sent a) : Fair c a.opened :=
  .inr ⟨congrArg (· + 1) h.ended, .inl h.balance⟩

theorem Settled.fair_made (h : Settled c sent a) : Fair c a.made := by
  refine .inr ⟨congrArg (· + 1) h.ended, .inr ?_⟩
  rw [← h.balance]
  simp only [made, opened, counted, marked, Books.balance]
  grind

theorem Settled.fair_decided (h : Settled c sent a) (hash : Option String) :
    Fair c (a.decided hash) := by
  cases hash with
  | none =>
      refine .inr ⟨congrArg (· + 1) h.ended, .inl ?_⟩
      rw [← h.balance]
      simp only [decided, made, opened, counted, marked, outcome, Option.isSome_none,
        Bool.false_eq_true, if_false, Books.balance]
      grind
  | some hash =>
      refine .inr ⟨congrArg (· + 1) h.ended, .inl ?_⟩
      rw [← h.balance]
      simp only [decided, made, opened, counted, marked, outcome, Option.isSome_some, if_true,
        Books.balance]
      grind

theorem Settled.closed (h : Settled c sent a) (hash : Option String) :
    Settled c (sent + 1) (a.closed hash) := by
  rcases h with ⟨hbegun, hended, htotal, hsuccessful, hfailed⟩
  have hone : ∀ n, UInt64.ofNat (n + 1) = UInt64.ofNat n + 1 := fun n => UInt64.ofNat_add n 1
  have hbegun' : a.begun + 1 = sent + 1 + a.inBursts := by omega
  have htotal' : a.total + 1 = c.total + .ofNat (a.begun + 1) := by
    rw [htotal, hone]
    grind
  -- The submission that began has ended, on the side that its outcome says.
  cases hash with
  | none =>
      refine ⟨hbegun', congrArg (· + 1) hended, htotal', hsuccessful, ?_⟩
      change a.failed + 1 = c.failed + .ofNat (a.rejected + 1)
      rw [hfailed, hone]
      grind
  | some hash =>
      refine ⟨hbegun', ?_, htotal', ?_, hfailed⟩
      · change a.begun + 1 = a.accepted + 1 + a.rejected
        rw [hended, Books.ended]
        omega
      · change a.successful + 1 = c.successful + .ofNat (a.accepted + 1)
        rw [hsuccessful, hone]
        grind

/-- The end of a burst moves what it sent from one page to another. -/
theorem Settled.burstEnded {more : Nat} (h : Settled c (sent + more) a) :
    Settled c sent (a.marked (.burstEnded more)) := by
  refine ⟨?_, h.ended, h.total, h.successful, h.failed⟩
  calc a.begun = sent + more + a.inBursts := h.begun
    _ = sent + (a.inBursts + more) := by omega

end Books

open Books (Settled Fair)

/-! ## The pact -/

/-- Others are bystanders, and every step leaves the books fair if they were. -/
def bookkeeping (host : Host activities) (c : Stats.Counters) : Pact activities where
  host := host
  token := World.cancelled
  rely w w' := books w' = books w
  guarantee w w' := Fair c (books w) → Fair c (books w')
  ends := False
  starves := True
  rely_refl _ := rfl
  rely_trans h h' := h'.trans h
  guarantee_refl _ := id
  guarantee_trans h h' := h' ∘ h

variable {host : Host activities} {c : Stats.Counters} {w : World activities}

theorem respects_bystander (P : Books → Prop) :
    (bookkeeping host c).Respects (bystander .task) (fun w => P (books w)) where
  rely := fun {w w'} hr hw => by
    have hbooks : books w' = books w := hr
    rwa [hbooks]
  effect := fun e w he hw => by
    simp only [bookkeeping]
    cases hperform : w.perform host w.cancelled e with
    | value b w' =>
        have hbooks := books_perform he hperform
        simp only [hbooks]
        exact ⟨id, hw⟩
    | starved => exact trivial
    | aborted cause => exact perform_ne_aborted he hperform
  begin := fun what w _ hw => by
    have hbooks := books_begin host what w
    simp only [bookkeeping, hbooks]
    exact ⟨id, hw⟩
  deliver := fun pending w hw => by
    have hbooks := books_deliver pending w
    simp only [bookkeeping, hbooks]
    exact ⟨id, hw⟩
  raced := fun _ h => h.elim nofun id
  loops := fun _ => id

/-- A bystander keeps the books as they are. -/
theorem keeps_bystander {α : Type} {p : Activity α} {P : Books → Prop}
    (hp : p.Within (bystander .task)) (hw : P (books w)) :
    p.Keeps (bookkeeping host c) (fun _ w => P (books w)) w :=
  keeps_of_within (respects_bystander P) hp hw

theorem keeps_aside {α : Type} {p : Activity α} {b : Books} (hp : p.Within (bystander .task))
    (hw : books w = b) : p.Keeps (bookkeeping host c) (fun _ w => books w = b) w :=
  keeps_bystander (P := fun b' => b' = b) hp hw

theorem keeps_done {α : Type} {x : α} {Q : α → World activities → Prop}
    (hQ : ∀ w', books w' = books w → Q x w') :
    (pure x : Activity α).Keeps (bookkeeping host c) Q w :=
  hQ

/-- An entry in the books. -/
theorem keeps_entry {β : Type} {e : Effect activities β} {b b' : Books}
    (he : ∀ w token, books w = b → ∃ x w', w.perform host token e = .value x w' ∧ books w' = b')
    (hfair : Fair c b') (hw : books w = b) :
    (act e : Activity β).Keeps (bookkeeping host c) (fun _ w => books w = b') w := by
  refine keeps_act ?_
  intro w₁ hr
  have hbooks₁ : books w₁ = books w := hr
  rcases he w₁ w₁.cancelled (hbooks₁.trans hw) with ⟨x, w₂, hperform, hbooks⟩
  simp only [bookkeeping, hperform]
  exact ⟨fun _ => hbooks ▸ hfair, fun w₃ hr' => hr'.trans hbooks⟩

theorem keeps_count {counter : Stats.Counter} {b : Books} (hfair : Fair c (b.counted counter))
    (hw : books w = b) :
    (count counter).Keeps (bookkeeping host c) (fun _ w => books w = b.counted counter) w :=
  keeps_bind (keeps_entry (fun w _ hw => ⟨_, _, rfl, hw ▸ books_counted w counter⟩) hfair hw)
    fun _ _ hw => keeps_done fun _ h => h.trans hw

theorem keeps_mark {m : Milestone} {b : Books} (hfair : Fair c (b.marked m)) (hw : books w = b) :
    (mark m : Activity Unit).Keeps (bookkeeping host c) (fun _ w => books w = b.marked m) w :=
  keeps_entry (fun w _ hw => ⟨(), _, rfl, by rw [books_marked, hw]⟩) hfair hw

/-! ## Submissions -/

variable {sent : Nat} {b : Books}

theorem keeps_offer (t : Transaction) (label : String) (endpoints : List Endpoint)
    (h : b.Settled c sent) (hw : books w = b.made) :
    (offer t label endpoints).Keeps (bookkeeping host c)
      (fun hash w => books w = b.decided hash) w := by
  -- The books stay as they are until an endpoint decides or none is left.
  induction endpoints generalizing w with
  | nil =>
      refine keeps_bind (keeps_count (h.fair_decided none) hw) ?_
      intro _ w hw
      refine keeps_bind (keeps_aside (within_log _ _) hw) ?_
      intro _ w hw
      exact keeps_done fun _ h => h.trans hw
  | cons endpoint rest ih =>
      refine keeps_bind (keeps_aside (within_race (within_ask trivial _)) hw) ?_
      intro answer w hw
      rcases answer with _ | _ | response
      · refine keeps_bind (keeps_count (h.fair_decided none) hw) ?_
        intro _ w hw
        refine keeps_bind (keeps_aside (within_log _ _) hw) ?_
        intro _ w hw
        exact keeps_done fun _ h => h.trans hw
      · exact ih hw
      · dsimp only
        split
        · rename_i hash _
          refine keeps_bind (keeps_count (h.fair_decided (some hash)) hw) ?_
          intro _ w hw
          refine keeps_bind (keeps_aside (within_log _ _) hw) ?_
          intro _ w hw
          exact keeps_done fun _ h => h.trans hw
        · exact keeps_bind (keeps_aside (within_log _ _) hw) fun _ w hw => ih hw

theorem keeps_submit (endpoints : List Endpoint) (t : Transaction) (label : String)
    (hw : (books w).Settled c sent) :
    (submit endpoints t label).Keeps (bookkeeping host c)
      (fun _ w => (books w).Settled c (sent + 1)) w := by
  refine keeps_bind (keeps_mark hw.fair_opened rfl) ?_
  intro _ w₁ hw₁
  refine keeps_bind (keeps_count hw.fair_made hw₁) ?_
  intro _ w₂ hw₂
  refine keeps_bind (keeps_offer t label endpoints hw hw₂) ?_
  intro hash w₃ hw₃
  refine keeps_bind (keeps_mark (hw.closed hash).fair hw₃) ?_
  intro _ w₄ hw₄
  exact keeps_done fun w₅ h => by rw [h, hw₄]; exact hw.closed hash

/-! ## Bursts -/

/-- Books that are settled stay so while a bystander goes on. -/
theorem keeps_settled {α : Type} {p : Activity α} (hp : p.Within (bystander .task))
    (hw : (books w).Settled c sent) :
    p.Keeps (bookkeeping host c) (fun _ w => (books w).Settled c sent) w :=
  keeps_bystander (P := Settled c sent) hp hw

theorem keeps_pure_settled {α : Type} {x : α} {Q : α → World activities → Prop}
    (hw : (books w).Settled c sent) (hQ : ∀ w', (books w').Settled c sent → Q x w') :
    (pure x : Activity α).Keeps (bookkeeping host c) Q w :=
  keeps_done fun w' h => hQ w' (by rwa [h])

theorem Burst.keeps_turn (b : Config.Bursts) (g : Transaction.Generator)
    (endpoints : List Endpoint) (size more : Nat)
    (hw : (books w).Settled c (sent + more)) :
    (turn b g endpoints size more).Keeps (bookkeeping host c) (fun turn w =>
      match turn with
      | .inl more => (books w).Settled c (sent + more)
      | .inr more => (books w).Settled c (sent + more)) w := by
  unfold turn
  split
  · refine keeps_bind (keeps_settled within_isCancelled hw) ?_
    intro token w hw
    cases token with
    | true => exact keeps_pure_settled hw fun _ h => h
    | false =>
        refine keeps_bind (keeps_settled (within_draw trivial g.steady_generate) hw)
          fun drawn w hw => ?_
        refine keeps_bind (keeps_submit endpoints drawn.1 _ hw) ?_
        intro _ w hw
        refine keeps_bind (keeps_settled (within_sleep b.pause) hw) ?_
        intro token w hw
        cases token with
        | true => exact keeps_pure_settled hw fun _ h => h
        | false => exact keeps_pure_settled hw fun _ h => h
  · exact keeps_pure_settled hw fun _ h => h

theorem Burst.keeps_run (b : Config.Bursts) (g : Transaction.Generator)
    (endpoints : List Endpoint) (size : Nat) (hw : (books w).Settled c sent) :
    (run b g endpoints size).Keeps (bookkeeping host c)
      (fun _ w => (books w).Settled c sent) w := by
  refine keeps_bind (keeps_settled (within_log _ _) hw) ?_
  intro _ w hw
  -- While a burst goes on, what it has sent is counted beside `sent`; its mark moves it.
  refine keeps_bind (P := fun more w => (books w).Settled c (sent + more))
    (keeps_iterate (fun more w => (books w).Settled c (sent + more)) (fun _ _ => True) False.elim
      (fun w' hr => ?_) fun more w hw => ?_) fun more w hw => ?_
  · rwa [show books w' = books w from hr]
  · refine keeps_mono (keeps_turn b g endpoints size more hw) ?_
    intro turn w h
    have h := h w rfl
    cases turn with
    | inl more => exact ⟨h, trivial⟩
    | inr more => exact h
  · refine keeps_bind (keeps_mark hw.burstEnded.fair rfl) ?_
    intro _ w' hw'
    have hended : (books w').Settled c sent := by
      rw [hw']
      exact hw.burstEnded
    exact keeps_pure_settled hended fun _ h => h

/-! ## The generation -/

namespace Plan

variable {p : Plan}

theorem keeps_burst (hp : p.Fit) (hw : (books w).Settled c sent) (sent' : Nat) :
    (p.burst sent').Keeps (bookkeeping host c) (fun _ w => (books w).Settled c sent) w := by
  unfold burst
  cases hb : p.bursts with
  | none => exact keeps_pure_settled hw fun _ h => h
  | some b =>
      dsimp only
      split
      · refine keeps_bind (keeps_settled (within_draw trivial (hp b hb)) hw) ?_
        intro size w hw
        have hrolled : (mark (.rolled size) : Activity Unit).Within (bystander .task) :=
          ⟨trivial, fun _ => trivial⟩
        refine keeps_bind (keeps_settled hrolled hw) ?_
        intro _ w hw
        cases size with
        | none => exact keeps_pure_settled hw fun _ h => h
        | some size =>
            exact keeps_bind (Burst.keeps_run b _ _ _ hw) fun _ w hw =>
              keeps_pure_settled hw fun _ h => h
      · exact keeps_pure_settled hw fun _ h => h

theorem keeps_turn (hp : p.Fit) (s : Progress) (hw : (books w).Settled c s.sent) :
    (p.turn s).Keeps (bookkeeping host c) (fun turn w =>
      match turn with
      | .inl s => (books w).Settled c s.sent
      | .inr sent => (books w).Settled c sent) w := by
  unfold turn
  refine keeps_bind (keeps_settled within_isCancelled hw) ?_
  intro token w hw
  cases token with
  | true => exact keeps_pure_settled hw fun _ h => h
  | false =>
      refine keeps_bind (keeps_settled (within_draw trivial p.generator.steady_generate) hw)
        fun drawn w hw => ?_
      refine keeps_bind (keeps_submit _ drawn.1 _ hw) ?_
      intro _ w hw
      refine keeps_bind (keeps_burst hp hw _) ?_
      intro _ w hw
      refine keeps_bind (keeps_settled (p.within_statistics _) hw) ?_
      intro lastStats w hw
      refine keeps_bind (keeps_settled (within_draw trivial (steady_pause _)) hw)
        fun delay w hw => ?_
      have hpaced : (mark (.paced delay) : Activity Unit).Within (bystander .task) :=
        ⟨trivial, fun _ => trivial⟩
      refine keeps_bind (keeps_settled hpaced hw) ?_
      intro _ w hw
      refine keeps_bind (keeps_settled (within_sleep delay) hw) ?_
      intro token w hw
      cases token with
      | true => exact keeps_pure_settled hw fun _ h => h
      | false => exact keeps_pure_settled hw fun _ h => h

/-- The generation ends with settled books, and tells what it sent outside bursts. -/
theorem keeps_run (hp : p.Fit) (hw : (books w).Settled c 0) :
    p.run.Keeps (bookkeeping host c) (fun sent w => (books w).Settled c sent) w := by
  refine keeps_bind (keeps_settled (p.within_awaitReady (awaits_bystander trivial)) hw) ?_
  intro ready w hw
  cases ready with
  | false => exact keeps_pure_settled hw fun _ h => h
  | true =>
      refine keeps_bind (keeps_settled within_clock hw) ?_
      intro now w hw
      refine keeps_iterate (fun s w => (books w).Settled c s.sent) (fun _ _ => True) False.elim
        (fun w' hr => ?_) fun s w hw => ?_
      · rwa [show books w' = books w from hr]
      · refine keeps_mono (keeps_turn hp s hw) ?_
        intro turn w h
        have h := h w rfl
        cases turn with
        | inl s => exact ⟨h, trivial⟩
        | inr sent => exact h

end Plan
end Activity
end TxWorkload
