import TxWorkload.Proofs.Activity.Generation
import TxWorkload.Proofs.Random.Steady

/-!
# Bystander — activities that leave the books on submissions alone

The books on submissions are kept in three counters and in the marks of submissions and bursts. An
activity that only looks at these counters and makes other marks is a bystander: polls, the watch,
statistics, log lines and pauses are. Bystanders differ in the freedom they have: whether they draw
words, whether they loop, and whether they wait for what does not race against cancellation.
-/

namespace TxWorkload
namespace Activity

open Routine (Effect Wait Licence World Host)
open Routine

/-! ## The books -/

/-- What the counters and the marks tell of submissions: how many began, were accepted and were
rejected, and how many were sent in bursts that have ended. -/
@[ext]
structure Books where
  total : UInt64
  successful : UInt64
  failed : UInt64
  begun : Nat
  accepted : Nat
  rejected : Nat
  inBursts : Nat

namespace Milestone

/-- Whether a submission has begun. -/
def begins : Milestone → Bool
  | submitting => true
  | _ => false

/-- Whether a submission has been accepted. -/
def accepts : Milestone → Bool
  | submitted (some _) => true
  | _ => false

/-- Whether a submission has been rejected by all. -/
def rejects : Milestone → Bool
  | submitted none => true
  | _ => false

/-- The number of transactions of a burst that has ended. -/
def burst : Milestone → Nat
  | burstEnded sent => sent
  | _ => 0

end Milestone

/-- The books of a world. -/
def books (w : World activities) : Books where
  total := w.counters.total
  successful := w.counters.successful
  failed := w.counters.failed
  begun := w.marks.countP Milestone.begins
  accepted := w.marks.countP Milestone.accepts
  rejected := w.marks.countP Milestone.rejects
  inBursts := w.marks.foldr (fun m n => m.burst + n) 0

namespace Books

/-- The books after a mark. -/
def marked (b : Books) (m : Milestone) : Books :=
  { b with
    begun := b.begun + if m.begins then 1 else 0
    accepted := b.accepted + if m.accepts then 1 else 0
    rejected := b.rejected + if m.rejects then 1 else 0
    inBursts := b.inBursts + m.burst }

/-- The books after counting one more. -/
def counted (b : Books) : Stats.Counter → Books
  | .total => { b with total := b.total + 1 }
  | .successful => { b with successful := b.successful + 1 }
  | .failed => { b with failed := b.failed + 1 }
  | .lastBlock => b
  | .blocksObserved => b

end Books

theorem books_marked (w : World activities) (m : Milestone) :
    books (w.note (.marked m)) = (books w).marked m := by
  have hmarks : (w.note (.marked m)).marks = m :: w.marks := rfl
  have hcounters : (w.note (.marked m)).counters = w.counters := rfl
  simp only [books, Books.marked, hmarks, hcounters, List.countP_cons,
    List.foldr_cons, Nat.add_comm]

theorem books_counted (w : World activities) (c : Stats.Counter) :
    books ({ w with counters := ((Stats.Access.add c 1).apply w.counters).2 }.note
      (.counted (.add c 1))) = (books w).counted c := by
  cases c <;> rfl

/-! ## The licence of a bystander -/

/-- Accesses that leave the counters of submissions alone. -/
def spares : Stats.Access → Prop
  | .load _ => True
  | .add c _ => c = .lastBlock ∨ c = .blocksObserved
  | .raise c _ => c = .lastBlock ∨ c = .blocksObserved

/-- What a bystander is free to do. -/
structure Freedom where
  /-- Whether it may wait without racing against cancellation. -/
  unraced : Prop := False
  loops : Prop := False
  draws : Prop := False

/-- The freedom of the tasks of a run, whose waits all race against cancellation. -/
def Freedom.task : Freedom where
  loops := True
  draws := True

/-- Effects that leave the books alone. -/
def bystands (f : Freedom) : {β : Type} → Effect activities β → Prop
  | _, .access a => spares a
  | _, .mark (.polled _) => True
  | _, .mark (.rolled _) => True
  | _, .mark (.paced _) => True
  | _, .mark _ => False
  | _, .draw d => f.draws ∧ d.Steady
  | _, _ => True

/-- The licence of a bystander. -/
def bystander (f : Freedom) : Licence activities where
  effect := bystands f
  wait raced _ _ := raced = true ∨ f.unraced
  loops := f.loops

theorem books_perform {β : Type} {f : Freedom} {e : Effect activities β} (he : bystands f e)
    {host : Host activities} {token : Bool} {w w' : World activities} {b : β}
    (h : w.perform host token e = .value b w') : books w' = books w := by
  cases e with
  | access a =>
      cases h
      cases a with
      | load c => cases c <;> rfl
      | add c amount => rcases he with rfl | rfl <;> rfl
      | raise c height => rcases he with rfl | rfl <;> rfl
  | mark m =>
      cases h
      cases m with
      | polled outcome => exact books_marked w (.polled outcome)
      | rolled size => exact books_marked w (.rolled size)
      | paced pause => exact books_marked w (.paced pause)
      | submitting => exact he.elim
      | submitted hash => exact he.elim
      | burstEnded sent => exact he.elim
  | draw d =>
      simp only [World.perform] at h
      split at h
      · cases h
        rfl
      · cases h
      · cases h
  | log level text => cases h; rfl
  | isCancelled => cases h; rfl
  | checkpoint => cases h; rfl
  | cancel => cases h; rfl
  | clock => cases h; rfl
  | uptime => cases h; rfl

theorem perform_ne_aborted {β : Type} {f : Freedom} {e : Effect activities β} (he : bystands f e)
    {host : Host activities} {token : Bool} {w : World activities} {cause : Abort} :
    w.perform host token e ≠ .aborted cause := by
  intro h
  rcases World.draw_of_perform_aborted h with ⟨d, rfl, habort⟩
  exact Random.Draw.Steady.ne_abort he.2 _ _ habort

theorem books_congr {w w' : World activities} (hcounters : w'.counters = w.counters)
    (hmarks : w'.marks = w.marks) : books w' = books w := by
  simp only [books, hcounters, hmarks]

theorem books_begin {β : Type} (host : Host activities) (what : Wait activities β)
    (w : World activities) : books (w.begin host what).1 = books w :=
  books_congr (w.counters_begin host what) (w.marks_begin host what)

theorem books_deliver {β : Type} (pending : World.Pending β) (w : World activities) :
    books (w.deliver pending) = books w :=
  books_congr (w.counters_deliver pending) (w.marks_deliver pending)

/-- A step of a bystander leaves the books alone. -/
theorem books_advance {α : Type} {f : Freedom} {host : Host activities} {token : Bool}
    {w w' : World activities} {s s' : Strand activities α} (h : s.Within (bystander f))
    (hs : s.advance host token w = some (w', s')) : books w' = books w :=
  Strand.relates_of_advance (R := fun w w' => books w' = books w) (fun _ => rfl)
    (fun h h' => h'.trans h) (fun _ he _ _ _ h => books_perform he h)
    (fun _ _ what _ w => books_begin host what w) (fun p w => books_deliver p w) h hs

/-! ## Bystanders -/

variable {f : Freedom}

theorem within_log (level : Level) (text : String) :
    (log level text : Activity Unit).Within (bystander f) :=
  ⟨trivial, fun _ => trivial⟩

theorem within_isCancelled : (isCancelled : Activity Bool).Within (bystander f) :=
  ⟨trivial, fun _ => trivial⟩

theorem within_clock : (act .clock : Activity Nat).Within (bystander f) :=
  ⟨trivial, fun _ => trivial⟩

theorem within_draw {α : Type} {d : Random.Draw α} (h : f.draws) (hd : d.Steady) :
    (draw d : Activity α).Within (bystander f) :=
  ⟨⟨h, hd⟩, fun _ => trivial⟩

theorem within_sleep (d : Duration) :
    (sleepOrCancelled d : Activity Bool).Within (bystander f) :=
  within_sleepOrCancelled trivial trivial (.inl rfl)

/-- What races against cancellation may wait in any way. -/
theorem within_race {α : Type} {p : Activity α}
    (hp : p.Within (bystander { f with unraced := True })) :
    (untilCancelled p).Within (bystander f) :=
  within_untilCancelled hp (fun _ he => he) (fun _ _ _ _ => .inl rfl) id trivial

theorem within_ask (h : f.unraced) (call : Rpc.Call) :
    (ask call : Activity (Option Rpc.Response)).Within (bystander f) :=
  ⟨.inr h, fun _ => trivial⟩

theorem reports_bystander : Reports (bystander f) where
  load := fun _ => trivial
  log := fun _ _ => trivial
  clock := trivial
  uptime := trivial

/-! ## Polls -/

/-- The calls by which a poll learns of the state of a node. -/
def inquires (call : Rpc.Call) : Prop :=
  call.method = "web3_clientVersion" ∨ call.method = "eth_blockNumber"

/-- Whether a licence allows to ask for the state of the nodes, and to observe heights. -/
structure Measures (L : Licence activities) : Prop where
  raise : ∀ height, L.effect (.access (.raise .lastBlock height))
  add : ∀ delta, L.effect (.access (.add .blocksObserved delta))
  ask : ∀ call, inquires call →
    L.wait false (Wait.reply call : Wait activities (Option Rpc.Response))

/-- Whether a licence allows what a poll does. -/
structure Polls (L : Licence activities) : Prop extends Measures L where
  polled : ∀ outcome, L.effect (.mark (.polled outcome))

theorem polls_bystander (h : f.unraced) : Polls (bystander f) where
  raise := fun _ => .inl rfl
  add := fun _ => .inr rfl
  polled := fun _ => trivial
  ask := fun _ _ => .inr h

variable {L : Licence activities}

theorem within_observe (hL : Measures L) (height : UInt64) : (observe height).Within L := by
  refine ⟨hL.raise height, fun before => ?_⟩
  change Within _ (ite (before < height) _ _)
  split
  · exact ⟨hL.add _, fun _ => trivial⟩
  · exact trivial

theorem within_isAlive (hL : Measures L) (endpoint : Endpoint) : (isAlive endpoint).Within L :=
  ⟨hL.ask _ (.inl rfl), fun _ => trivial⟩

theorem within_measure (hL : Measures L) (n : Network) : (measure n).Within L := by
  refine within_bind (within_isAlive hL _) fun _ => within_bind (within_isAlive hL _) fun _ =>
    within_bind ⟨hL.ask _ (.inr rfl), fun _ => trivial⟩ fun answer => ?_
  split
  · exact within_bind (within_observe hL _) fun _ => trivial
  · exact trivial

/-- A poll does what a licence for polls allows. -/
theorem within_poll (hL : Polls L) (n : Network) : (poll n).Within L :=
  within_bind (within_measure hL.toMeasures n) fun _ => ⟨hL.polled _, fun _ => trivial⟩

theorem within_check (hL : Polls L) (hlog : ∀ level text, L.effect (.log level text))
    (n : Network) : (check n).Within L := by
  refine within_bind (within_poll hL n) ?_
  intro outcome
  cases outcome with
  | ok report => exact trivial
  | error cause => exact within_bind ⟨hlog _ _, fun _ => trivial⟩ fun _ => trivial

theorem within_record (hL : ∀ level text, L.effect (.log level text)) (w : Config.Watch)
    (outcome : Except Error Report) : (record w outcome).Within L := by
  cases outcome with
  | ok r =>
      have hwarn : Within L (if r.allDown then do
          log .warn "⚠️  All endpoints down, waiting for recovery..."
          return pauseAfter w r
        else return pauseAfter w r : Activity Duration) := by
        split
        · exact ⟨hL _ _, fun _ => trivial⟩
        · exact trivial
      unfold record
      dsimp only
      split
      · exact ⟨hL _ _, fun _ => hwarn⟩
      · exact hwarn
  | error cause => exact ⟨hL _ _, fun _ => trivial⟩

/-! ## The watch -/

/-- The licence by which any wait that may race against cancellation may also be waited for. -/
def unraced (L : Licence activities) : Licence activities :=
  { L with wait _ _ what := L.wait true what }

/-- Whether a licence allows to poll the network again and again, until the run is cancelled. -/
structure Awaits (L : Licence activities) : Prop where
  polls : Polls (unraced L)
  log : ∀ level text, L.effect (.log level text)
  isCancelled : L.effect .isCancelled
  checkpoint : L.effect .checkpoint
  timer : ∀ d, L.wait true (Wait.timer d : Wait activities Unit)
  loops : L.loops

theorem awaits_bystander (h : f.loops) : Awaits (bystander f) where
  polls :=
    { raise := fun _ => .inl rfl
      add := fun _ => .inr rfl
      polled := fun _ => trivial
      ask := fun _ _ => .inl rfl }
  log := fun _ _ => trivial
  isCancelled := trivial
  checkpoint := trivial
  timer := fun _ => .inl rfl
  loops := h

theorem within_pollRaced {α : Type} (hL : Awaits L) {p : Activity α} (hp : p.Within (unraced L)) :
    (untilCancelled p).Within L :=
  within_untilCancelled hp (fun _ he => he) (fun _ _ _ hwait => hwait) id hL.checkpoint

theorem within_nap (hL : Awaits L) (d : Duration) : (sleepOrCancelled d : Activity Bool).Within L :=
  within_sleepOrCancelled hL.checkpoint hL.isCancelled (hL.timer d)

theorem within_watchTurn (hL : Awaits L) (n : Network) (w : Config.Watch) :
    (watchTurn n w).Within L := by
  refine within_bind ⟨hL.isCancelled, fun _ => trivial⟩ ?_
  intro token
  split
  · exact trivial
  · refine within_bind (within_pollRaced hL (within_poll hL.polls n)) ?_
    intro outcome
    cases outcome with
    | none => exact trivial
    | some outcome =>
        refine within_bind (within_record hL.log w outcome) fun pause =>
          within_bind (within_nap hL pause) fun token => ?_
        split <;> exact trivial

theorem within_watch (hL : Awaits L) (n : Network) (w : Config.Watch) : (watch n w).Within L :=
  within_iterate hL.loops fun _ => within_watchTurn hL n w

/-! ## Parts of the generation -/

namespace Plan

theorem within_readinessTurn (hL : Awaits L) (p : Plan) : p.readinessTurn.Within L := by
  refine within_bind ⟨hL.isCancelled, fun _ => trivial⟩ ?_
  intro token
  split
  · exact trivial
  · refine within_bind (within_pollRaced hL (within_check hL.polls hL.log p.network)) ?_
    intro report
    cases report with
    | none => exact trivial
    | some report =>
        change Within _ (ite (report.anyUp = true) _ _)
        split
        · exact within_bind ⟨hL.log _ _, fun _ => trivial⟩ fun _ => trivial
        · refine within_bind (within_nap hL _) ?_
          intro token
          split <;> exact trivial

theorem within_awaitReady (hL : Awaits L) (p : Plan) : p.awaitReady.Within L :=
  within_bind ⟨hL.log _ _, fun _ => trivial⟩ fun _ =>
    within_iterate hL.loops fun _ => p.within_readinessTurn hL

theorem within_statistics (p : Plan) (lastStats : Nat) :
    (p.statistics lastStats).Within (bystander f) :=
  reports_bystander.within_statistics p lastStats

end Plan
end Activity
end TxWorkload
