import Mathlib.Data.List.Basic
import TxWorkload.Proofs.Routine.Adequacy
import TxWorkload.Proofs.Rpc.Attempt

/-!
# Series — the attempts of an operation

An operation is told the number of the attempt and comes out in one way or another, after any time
and depending on all earlier attempts. The attempts are made in order, without a gap, up to the
first that succeeds or to the last one that is allowed. All that happens besides is one line behind
each failure, and a pause where waiting may help and an attempt is left.
-/

namespace TxWorkload
namespace Rpc

open Routine

/-- Operations are told the number of the attempt, and answer with an outcome. -/
abbrev operations (ε α : Type) : Signature where
  Request := UInt32
  Answer := Except ε α
  Mark := Empty

variable {ε α : Type}

/-- One call of an operation. -/
def operate (k : UInt32) : Routine (operations ε α) (Except ε α) :=
  ask (S := operations ε α) k

/-- What decides how an operation is tried: the settings, the host that answers, and the attempts
that were made before. -/
structure Series (ε α : Type) where
  retry : Retry
  host : Host (operations ε α)
  past : List UInt32

namespace Series

/-! ## Attempts -/

section

variable (s : Series ε α)

/-- The numbers of so many attempts, in order. -/
def calls (made : Nat) : List UInt32 :=
  (List.range made).map UInt32.ofNat

/-- The reply to an attempt, counted from zero: all earlier ones were made. -/
def reply (k : Nat) : Reply (Except ε α) :=
  s.host.transport ((calls k).reverse ++ s.past) (.ofNat k)

/-- How an attempt comes out. -/
def outcome (k : Nat) : Except ε α :=
  (s.reply k).answer

/-- Whether there is a reply to every attempt that can be made: those within the limit behind
failures only. -/
def Replies : Prop :=
  ∀ k < s.retry.limit, (∀ j < k, ∃ e, s.outcome j = .error e) → (s.reply k).delay ≠ none

variable [Retryable ε]

/-- The pause behind an attempt, if there is one. -/
def pauses (k : Nat) : List Duration :=
  match s.outcome k with
  | .ok _ => []
  | .error e => if pausesAfter s.retry.limit k e then [s.retry.delayFor (.ofNat k)] else []

/-- The line behind an attempt, if it fails. -/
def lines (k : Nat) : List (Level × String) :=
  match s.outcome k with
  | .ok _ => []
  | .error e => [failureLine s.retry.limit k e]

/-- An attempt, and the pause behind it. -/
def acts (k : Nat) : List (Act (operations ε α)) :=
  .asks (.ofNat k) :: (s.pauses k).map .sleeps

/-- What is written down of an attempt. -/
def events (k : Nat) : List (Event (operations ε α)) :=
  .sent (.ofNat k) :: (s.lines k).map fun line => .logged line.1 line.2

end

variable {s : Series ε α}

theorem calls_succ (made : Nat) : calls (made + 1) = calls made ++ [.ofNat made] := by
  rw [calls, List.range_succ, List.map_append, List.map_singleton, calls]

/-! ## One attempt -/

/-- The events of a journal, oldest first. -/
def eventsOf (w : World (operations ε α)) : List (Event (operations ε α)) :=
  (w.journal.map Entry.event).reverse

/-- What was done, in order. -/
def actsOf (deeds : List (Deed (operations ε α))) : List (Act (operations ε α)) :=
  deeds.map Deed.act

variable {k : Nat} {w : World (operations ε α)}

theorem evaluates_operate (hw : w.past = (calls k).reverse ++ s.past)
    (hdelay : (s.reply k).delay ≠ none) :
    ∃ w₁, (operate (UInt32.ofNat k)).Evaluates s.host w
        (w.deeds (some (.asks (.ofNat k)))) (s.outcome k) w₁ ∧
      w₁.past = (calls (k + 1)).reverse ++ s.past ∧
      eventsOf w₁ = eventsOf w ++ [.sent (.ofNat k)] := by
  have hreply : s.host.transport w.past (.ofNat k) = s.reply k := by rw [hw]; rfl
  rcases Option.ne_none_iff_exists'.1 hdelay with ⟨delay, hdelay⟩
  have hdue : (w.begin s.host (.reply (UInt32.ofNat k) : Wait (operations ε α) _)).2.due =
      some (s.host.clock.deadline w.now delay) := by
    simp only [World.begin, hreply, hdelay, Option.map_some]
  rcases exists_awaited hdue with ⟨w₁, hawaited, -, hpast, hjournal⟩
  refine ⟨w₁, evaluates_await.2 ⟨hawaited, congrArg Reply.answer hreply.symm, rfl⟩, ?_, ?_⟩
  · rw [hpast, calls_succ, List.reverse_append, List.append_assoc, ← hw]
    rfl
  · rw [eventsOf, hjournal]
    exact List.reverse_cons

variable [Retryable ε] {world : World (operations ε α)}

/-- A world in which a number of attempts have been made since another one. -/
structure Stands (s : Series ε α) (world : World (operations ε α)) (k : Nat)
    (w : World (operations ε α)) : Prop where
  past : w.past = (calls k).reverse ++ s.past
  events : eventsOf w = eventsOf world ++ (List.range k).flatMap s.events

theorem Stands.succ {w₁ : World (operations ε α)} (hw : s.Stands world k w)
    (hpast : w₁.past = (calls (k + 1)).reverse ++ s.past)
    (hevents : eventsOf w₁ = eventsOf w ++ s.events k) : s.Stands world (k + 1) w₁ := by
  refine ⟨hpast, ?_⟩
  rw [hevents, hw.events, List.append_assoc, List.range_succ, List.flatMap_append,
    List.flatMap_singleton]

/-- One attempt: it succeeds, or leads on to the next one, or was the last one. -/
theorem evaluates_attempt (hk : k < s.retry.limit) (hw : s.Stands world k w)
    (hdelay : (s.reply k).delay ≠ none) :
    ∃ deeds w₁, (attempt s.retry operate (.ofNat k)).Evaluates s.host w deeds
        (turnAfter s.retry k (s.outcome k)) w₁ ∧
      actsOf deeds = s.acts k ∧ s.Stands world (k + 1) w₁ := by
  rcases evaluates_operate hw.past hdelay with ⟨w₁, hcall, hpast, htold⟩
  cases houtcome : s.outcome k with
  | ok a =>
      have hacts : s.acts k = [.asks (.ofNat k)] := by simp only [acts, pauses, houtcome, List.map]
      have hevents : s.events k = [.sent (.ofNat k)] := by
        simp only [events, lines, houtcome, List.map]
      rw [houtcome] at hcall
      refine ⟨_, w₁, evaluates_attempt_ok operate hcall, hacts.symm, hw.succ hpast ?_⟩
      rw [hevents, htold]
  | error e =>
      rw [houtcome] at hcall
      rcases evaluates_attempt_error operate hk hcall with ⟨w₂, hattempt, hrecovers⟩
      refine ⟨_, w₂, hattempt, ?_, hw.succ (hrecovers.past.trans hpast) ?_⟩
      · simp only [acts, pauses, houtcome]
        rw [actsOf, List.map_append, rest]
        split <;> rfl
      · have hline : eventsOf w₂ = eventsOf w₁ ++
            [.logged (failureLine s.retry.limit k e).1 (failureLine s.retry.limit k e).2] := by
          rw [eventsOf, hrecovers.journal]
          exact List.reverse_cons
        simp only [events, lines, houtcome]
        rw [hline, htold, List.append_assoc]
        rfl

/-! ## Pauses -/

/-- The length of a pause, if an act is one. -/
def pause? : Act (operations ε α) → Option Duration
  | .sleeps d => some d
  | _ => none

/-- The pauses of a run, in order. -/
def pausesOf (deeds : List (Deed (operations ε α))) : List Duration :=
  (actsOf deeds).filterMap pause?

theorem filterMap_acts (s : Series ε α) (k : Nat) : (s.acts k).filterMap pause? = s.pauses k := by
  have hsleeps : pause? ∘ (Act.sleeps (S := operations ε α)) = some := rfl
  change ((s.pauses k).map Act.sleeps).filterMap pause? = s.pauses k
  rw [List.filterMap_map, hsleeps, List.filterMap_some]

theorem pausesOf_eq {deeds : List (Deed (operations ε α))} {made : Nat}
    (h : actsOf deeds = (List.range made).flatMap s.acts) :
    pausesOf deeds = (List.range made).flatMap s.pauses := by
  rw [pausesOf, h, List.filterMap_flatMap]
  exact congrArg (List.range made).flatMap (funext (filterMap_acts s))

/-- If waiting may help behind every failure, the pauses are those of the settings. -/
theorem flatMap_pauses
    (h : ∀ k < s.retry.limit, ∃ e, s.outcome k = .error e ∧ Retryable.isRetryable e = true) :
    (List.range s.retry.limit).flatMap s.pauses = s.retry.delays := by
  have hpauses : ∀ k < s.retry.limit, s.pauses k =
      if k + 1 < s.retry.limit then [s.retry.delayFor (.ofNat k)] else [] := by
    intro k hk
    rcases h k hk with ⟨e, houtcome, hretryable⟩
    simp [pauses, houtcome, pausesAfter, hretryable]
  have hlimit : s.retry.limit = s.retry.maxAttempts.toNat - 1 + 1 := by
    unfold Retry.limit
    omega
  -- Behind the last attempt there is nothing, and behind every other one there is one pause.
  have hlast : s.pauses (s.retry.maxAttempts.toNat - 1) = [] := by
    rw [hpauses _ (by omega), if_neg (by omega)]
  have hbefore : ∀ k ∈ List.range (s.retry.maxAttempts.toNat - 1),
      s.pauses k = [s.retry.delayFor (.ofNat k)] := by
    intro k hk
    have hlt := List.mem_range.1 hk
    rw [hpauses k (by omega), if_pos (by omega)]
  rw [hlimit, List.range_succ, List.flatMap_append, List.flatMap_singleton, hlast,
    List.append_nil, Retry.delays, List.map_eq_flatMap]
  exact List.flatMap_congr hbefore

/-! ## Series -/

/-- A number of attempts that were made one after the other, and nothing besides. -/
structure Made (s : Series ε α) (made : Nat) (world : World (operations ε α))
    (deeds : List (Deed (operations ε α))) (w : World (operations ε α)) : Prop where
  past : w.past = (calls made).reverse ++ world.past
  acts : actsOf deeds = (List.range made).flatMap s.acts
  events : eventsOf w = eventsOf world ++ (List.range made).flatMap s.events

/-- A series ends, with the outcome of the last attempt that is made. -/
theorem evaluates_withRetry (world : World (operations ε α)) (hworld : s.past = world.past)
    (hreplies : s.Replies) :
    ∃ k deeds w₁, (withRetry s.retry operate).Evaluates s.host world deeds (s.outcome k) w₁ ∧
      EndsAt s.retry s.outcome k ∧ s.Made (k + 1) world deeds w₁ := by
  have hattempts : Attempts s.host s.retry operate s.outcome (s.Stands world) Deed.act s.acts :=
    fun k _ hk hearlier hw => evaluates_attempt hk hw (hreplies k hk hearlier)
  have hstart : s.Stands world 0 world := ⟨hworld.symm, (List.append_nil _).symm⟩
  rcases exists_withRetry hattempts hstart with ⟨k, deeds, w₁, htried, hends, hstands, hacts⟩
  exact ⟨k, deeds, w₁, htried, hends, by rw [hstands.past, hworld], hacts, hstands.events⟩

end Series

open Series (pausesOf)

variable [Retryable ε]

/-- An operation is tried with the numbers from zero on, in order and without a gap. If some attempt
within the limit succeeds, the first such attempt is the last one and its value is the outcome;
otherwise all attempts within the limit are made, and the outcome is the error of the last one. All
that is done besides are the pauses behind those attempts that fail with an attempt left and waiting
of use, and all that is written is one line behind each failure. If all of them fail and waiting may
help every time, the pauses are the list that the settings give. The number of an attempt and the
next one stay below `2 ^ 32`. -/
theorem withRetry_tries_in_order (retry : Retry) (host : Host (operations ε α))
    (world : World (operations ε α))
    (hreplies : (⟨retry, host, world.past⟩ : Series ε α).Replies) :
    let s : Series ε α := ⟨retry, host, world.past⟩
    ∃ n result,
      let x := Solo.run host n (Solo.start world (withRetry retry operate))
      let deeds := Solo.trail host n (Solo.start world (withRetry retry operate))
      x.strand.result? = some result ∧
      (∀ k < retry.limit, ∀ a, s.outcome k = .ok a → (∀ j < k, ∃ e, s.outcome j = .error e) →
        result = .ok a ∧ s.Made (k + 1) world deeds x.world) ∧
      ((∀ k < retry.limit, ∃ e, s.outcome k = .error e) →
        result = s.outcome (retry.limit - 1) ∧ s.Made retry.limit world deeds x.world) ∧
      ((∀ k < retry.limit, ∃ e, s.outcome k = .error e ∧ Retryable.isRetryable e = true) →
        pausesOf deeds = retry.delays) ∧
      ∀ k < retry.limit, (UInt32.ofNat k).toNat = k ∧ (UInt32.ofNat k + 1).toNat = k + 1 := by
  intro s
  rcases s.evaluates_withRetry world rfl hreplies with ⟨made, deeds, w₁, htried, hends, hmade⟩
  rcases Solo.exists_run_of_evaluates htried with ⟨n, hrun, htrail⟩
  have hexhausted : (∀ k < retry.limit, ∃ e, s.outcome k = .error e) → made + 1 = retry.limit :=
    hends.succ_eq
  refine ⟨n, s.outcome made, ?_⟩
  dsimp only
  rw [hrun, htrail]
  refine ⟨rfl, ?_, ?_, ?_, ?_⟩
  · intro k hk a hok hearlier
    obtain rfl := hends.eq_of_ok hk hok hearlier
    exact ⟨hok, hmade⟩
  · intro hfails
    rw [← hexhausted hfails]
    exact ⟨rfl, hmade⟩
  · intro hretryable
    have hall := hexhausted fun k hk => (hretryable k hk).imp fun _ h => h.1
    rw [Series.pausesOf_eq hmade.acts, hall]
    exact Series.flatMap_pauses hretryable
  · intro k hk
    refine ⟨Retry.toNat_ofNat (Nat.le_of_lt hk), ?_⟩
    have hnext : UInt32.ofNat k + 1 = UInt32.ofNat (k + 1) := (UInt32.ofNat_add k 1).symm
    rw [hnext, Retry.toNat_ofNat hk]

/-- With as many attempts as there can be: the first fails on the way, the second with a status, and
the third succeeds. With two attempts that both fail on the way, the second failure is the
outcome. -/
theorem withRetry_tries_in_order_mixed :
    let outcomes : Nat → Except Error Nat
      | 0 => .error (.unreachable "refused")
      | 1 => .error (.httpStatus 500 "http://one")
      | _ => .ok 7
    let mixed : Host (operations Error Nat) :=
      { transport := fun past _ => { answer := outcomes past.length } }
    let down : Host (operations Error Nat) :=
      { transport := fun _ _ => { answer := .error (.unreachable "refused") } }
    let most : Retry := { maxAttempts := 0xffffffff }
    let two : Retry := { maxAttempts := 2 }
    (∃ n,
      let x := Solo.run mixed n (Solo.start {} (withRetry most operate))
      x.strand.result? = some (.ok 7) ∧ x.world.past = [2, 1, 0] ∧
        pausesOf (Solo.trail mixed n (Solo.start {} (withRetry most operate))) = [.ofSecs 1]) ∧
    ∃ n,
      let x := Solo.run down n (Solo.start {} (withRetry two operate))
      x.strand.result? = some (.error (.unreachable "refused")) ∧ x.world.past = [1, 0] ∧
        pausesOf (Solo.trail down n (Solo.start {} (withRetry two operate))) = two.delays := by
  intro outcomes mixed down most two
  refine ⟨?_, ?_⟩
  · let s : Series Error Nat := ⟨most, mixed, []⟩
    have hreplies : s.Replies := by
      intro k _ _ h
      cases h
    rcases withRetry_tries_in_order most mixed {} hreplies with
      ⟨n, result, hresult, hfirst, -, -, -⟩
    have hearlier : ∀ j < 2, ∃ e, s.outcome j = .error e := by
      rintro (_ | _ | j) hj
      · exact ⟨_, rfl⟩
      · exact ⟨_, rfl⟩
      · omega
    rcases hfirst 2 (by decide) 7 rfl hearlier with ⟨rfl, hpast, hacts, -⟩
    refine ⟨n, hresult, hpast, ?_⟩
    rw [Series.pausesOf_eq hacts]
    decide +kernel
  · let s : Series Error Nat := ⟨two, down, []⟩
    have hreplies : s.Replies := by
      intro k _ _ h
      cases h
    rcases withRetry_tries_in_order two down {} hreplies with
      ⟨n, result, hresult, -, hnone, hpauses, -⟩
    rcases hnone fun k _ => ⟨_, rfl⟩ with ⟨rfl, hmade⟩
    exact ⟨n, hresult, hmade.past, hpauses fun k _ => ⟨_, rfl, rfl⟩⟩

end Rpc
end TxWorkload
