import TxWorkload.Proofs.Activity.Accounting
import TxWorkload.Proofs.Activity.Punctuality
import TxWorkload.Proofs.Random.Stream
import TxWorkload.Proofs.Routine.Reply
import TxWorkload.Proofs.Routine.Rest

/-!
# Booking — what the submissions of a burst count, and the words they take

A submission that has ended, in whatever way, was counted once as made, and once as successful or
failed. Its transaction took words off the supply, and nothing else did. What happens between two
submissions is not counted.
-/

namespace TxWorkload
namespace Activity
namespace Burst

open Routine
open Routine (Host World)
open TxWorkload.Random (excerpt)
open TxWorkload.Random.Draw (Served)

variable {g : Transaction.Generator} {endpoints : List Endpoint} {host : Host activities}
  {w w₀ w₁ w' : World activities} {hash : Option String}

/-! ## Submissions -/

/-- Draw a transaction and submit it. -/
def submission (g : Transaction.Generator) (endpoints : List Endpoint) :
    Activity (Option String) := do
  let (t, kind) ← draw g.generate
  submit endpoints t kind.burstName

theorem books_of_ask {call : Rpc.Call} {answer : Option (Option Rpc.Response)}
    (h : (untilCancelled (ask call)).ComesTo host w answer w') : books w' = books w := by
  rcases comesTo_untilCancelled.1 h with ⟨-, -, rfl⟩ | ⟨-, h⟩
  · rfl
  · change ((await (.reply call) : Activity _).guarded).ComesTo host w answer w' at h
    rw [guarded_await] at h
    rcases comesTo_race.1 h with ⟨reply, w₁, hraced, hdone⟩
    rcases comesTo_pure.1 hdone with ⟨-, rfl⟩
    cases reply with
    | none =>
        rw [hraced.missed]
        rfl
    | some response =>
        rcases raced_reply.1 hraced with ⟨d, -, -, rfl⟩
        rfl

theorem books_of_count {c : Stats.Counter} (h : (count c).ComesTo host w () w') :
    books w' = (books w).counted c := by
  rcases comesTo_bind.1 h with ⟨before, w₁, hadd, hdone⟩
  cases comesTo_act.1 hadd
  rcases comesTo_pure.1 hdone with ⟨-, rfl⟩
  exact books_counted w c

/-- An offer is booked as successful or failed, whatever becomes of it. -/
theorem books_of_offer {t : Transaction} {label : String}
    (h : (offer t label endpoints).ComesTo host w hash w') :
    books w' = (books w).counted (Books.outcome hash) := by
  have hbooked : ∀ {c level text} {hash' : Option String} {w : World activities},
      (do
        count c
        log level text
        return hash' : Activity (Option String)).ComesTo host w hash w' →
      hash = hash' ∧ books w' = (books w).counted c := by
    intro c level text hash' w h
    rcases comesTo_bind.1 h with ⟨_, w₁, hcount, h⟩
    rcases comesTo_bind.1 h with ⟨_, w₂, hlog, hdone⟩
    rcases comesTo_pure.1 hdone with ⟨rfl, rfl⟩
    have hbooks := books_of_count hcount
    rw [comesTo_log.1 hlog]
    exact ⟨rfl, hbooks⟩
  induction endpoints generalizing w with
  | nil =>
      rcases hbooked h with ⟨rfl, hbooks⟩
      exact hbooks
  | cons endpoint rest ih =>
      rcases comesTo_bind.1 h with ⟨answer, w₁, hask, h⟩
      -- Asking is not booked, so only the last of the endpoints that were asked matters.
      rw [← books_of_ask hask]
      rcases answer with _ | _ | response
      · rcases hbooked h with ⟨rfl, hbooks⟩
        exact hbooks
      · exact ih h
      · dsimp only at h
        split at h
        · rcases hbooked h with ⟨rfl, hbooks⟩
          exact hbooks
        · rcases comesTo_bind.1 h with ⟨_, w₂, hlog, h⟩
          have hbooks := ih h
          rw [comesTo_log.1 hlog] at hbooks
          exact hbooks

theorem books_of_submit {t : Transaction} {label : String}
    (h : (submit endpoints t label).ComesTo host w hash w') :
    books w' = (books w).closed hash := by
  rcases comesTo_bind.1 h with ⟨_, w₁, hbegun, h⟩
  rcases comesTo_bind.1 h with ⟨_, w₂, hmade, h⟩
  rcases comesTo_bind.1 h with ⟨hash', w₃, hdecided, h⟩
  rcases comesTo_bind.1 h with ⟨_, w₄, hended, hdone⟩
  rcases comesTo_pure.1 hdone with ⟨rfl, rfl⟩
  rw [comesTo_mark.1 hended, books_marked, books_of_offer hdecided, books_of_count hmade,
    comesTo_mark.1 hbegun, books_marked]
  rfl

/-- What is true of a submission that has ended. -/
structure Submitted (g : Transaction.Generator) (w : World activities) (hash : Option String)
    (w' : World activities) : Prop where
  books : books w' = (books w).closed hash
  later : w.now ≤ w'.now
  supply : ∃ drawn, g.generate w.supply = .value drawn w'.supply

theorem submitted_of_comesTo (h : (submission g endpoints).ComesTo host w hash w') :
    Submitted g w hash w' := by
  rcases comesTo_bind.1 h with ⟨⟨t, kind⟩, w₁, hdraw, hsubmit⟩
  rcases comesTo_draw.1 hdraw with ⟨rest, hdrawn, rfl⟩
  have hsubmits : Submits (doing fun _ => True : Licence activities) :=
    { toSettles := settles_doing
      total := doing_of_idle trivial
      submitting := ⟨fun _ _ => trivial, fun _ _ _ _ _ h => by cases h; rfl⟩
      submitted := fun _ => ⟨fun _ _ => trivial, fun _ _ _ _ _ h => by cases h; rfl⟩
      ask := fun _ => trivial }
  rcases comesTo_iff.1 hsubmit with ⟨deeds, hevaluates⟩
  have hstretch := stretch_of_evaluates (within_submit hsubmits _ _ _) hevaluates
  have hbooks := books_of_submit hsubmit
  refine ⟨hbooks, hstretch.later, (t, kind), ?_⟩
  rw [hdrawn, show w'.supply = rest from hstretch.supply]

/-! ## Counting -/

/-- The counters and the marks after some submissions: so many more have begun and were counted as
made, and as many have succeeded or failed. -/
structure Counted (sent : Nat) (w₀ w : World activities) : Prop where
  begun : (books w).begun = (books w₀).begun + sent
  total : w.counters.total = w₀.counters.total + .ofNat sent
  ended : w.counters.successful + w.counters.failed =
    w₀.counters.successful + w₀.counters.failed + .ofNat sent

namespace Counted

variable {sent : Nat}

/-- What makes no mark of a submission and leaves the counters alone is not counted. -/
theorem of_eq (hbegun : (books w').begun = (books w).begun) (hcounters : w'.counters = w.counters) :
    Counted 0 w w' := by
  refine ⟨hbegun, ?_, ?_⟩
  · rw [hcounters]
    exact (UInt64.add_zero _).symm
  · rw [hcounters]
    exact (UInt64.add_zero _).symm

theorem trans {more : Nat} (h : Counted sent w₀ w) (h' : Counted more w w') :
    Counted (sent + more) w₀ w' := by
  refine ⟨?_, ?_, ?_⟩
  · rw [h'.begun, h.begun, Nat.add_assoc]
  · rw [h'.total, h.total, UInt64.ofNat_add, UInt64.add_assoc]
  · rw [h'.ended, h.ended, UInt64.ofNat_add, UInt64.add_assoc]

/-- A submission counts once. -/
theorem of_submitted (h : Submitted g w hash w') : Counted 1 w w' := by
  refine ⟨?_, ?_, ?_⟩
  · rw [h.books]
    cases hash <;> rfl
  · refine (congrArg Books.total h.books).trans ?_
    cases hash <;> rfl
  · have hsuccessful : w'.counters.successful = _ := congrArg Books.successful h.books
    have hfailed : w'.counters.failed = _ := congrArg Books.failed h.books
    rw [hsuccessful, hfailed]
    -- Only one of the two counters has grown.
    cases hash with
    | none => exact (UInt64.add_assoc _ _ _).symm
    | some hash =>
        change w.counters.successful + 1 + w.counters.failed = _
        rw [UInt64.add_assoc, UInt64.add_comm 1, ← UInt64.add_assoc]
        rfl

theorem of_rests {d : Duration} {token : Bool} (h : Rests host w d token w') : Counted 0 w w' := by
  rcases h.undisturbed with ⟨hcounters, -, hjournal, -⟩
  refine of_eq ?_ hcounters
  simp only [books, World.marks, hjournal]

/-- So does a submission with the pause after it. -/
theorem next {d : Duration} {token : Bool} (h : Counted sent w₀ w) (hsubmit : Submitted g w hash w₁)
    (hrests : Rests host w₁ d token w') : Counted (sent + 1) w₀ w' :=
  (h.trans (of_submitted hsubmit)).trans (of_rests hrests)

end Counted

/-! ## Words -/

/-- Whether a supply has the words for a number of transactions. -/
def serves (g : Transaction.Generator) : Nat → Random.Supply → Bool
  | 0, _ => true
  | n + 1, supply =>
      match g.generate supply with
      | .value _ rest => serves g n rest
      | _ => false

/-- A stream that serves a generator has the words for any number of transactions. -/
theorem exists_serves {σ : Nat → UInt64} (hσ : Served σ g.generate) (start n : Nat) :
    ∃ m, ∀ more, serves g n (excerpt σ start m ++ more) = true := by
  induction n generalizing start with
  | zero => exact ⟨0, fun _ => rfl⟩
  | succ n ih =>
      rcases hσ.ends start with ⟨m, hm⟩
      rcases (hσ.steady (excerpt σ start m)).resolve_left hm with ⟨u, drawn, ⟨r, hr⟩, hu⟩
      rcases Random.exists_excerpt hr.symm with ⟨start', n', hend, rfl⟩
      rcases ih start' with ⟨m', hm'⟩
      -- The first transaction leaves words at which the others begin.
      refine ⟨m + m', fun more => ?_⟩
      have hwords : excerpt σ start (m + m') ++ more =
          u ++ (excerpt σ start' m' ++ (excerpt σ (start' + m') n' ++ more)) := by
        calc excerpt σ start (m + m') ++ more
            = u ++ (excerpt σ start' n' ++ excerpt σ (start' + n') m') ++ more := by
              rw [Random.excerpt_add, ← hr, hend, List.append_assoc u]
          _ = u ++ (excerpt σ start' m' ++ excerpt σ (start' + m') n') ++ more := by
              rw [← Random.excerpt_add, Nat.add_comm n' m', Random.excerpt_add]
          _ = _ := by simp only [List.append_assoc]
      rw [hwords, serves, hu]
      exact hm' _

end Burst
end Activity
end TxWorkload
