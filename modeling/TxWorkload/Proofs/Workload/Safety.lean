import TxWorkload.Proofs.Activity.Dice
import TxWorkload.Proofs.Random.Abort
import TxWorkload.Proofs.Workload.Balance

/-!
# Safety — accepted settings never end a generation early

A draw gives up on an empty range or on what is no probability. The checks of the settings and of
the pool see to it that no draw of a generation is asked for either. So in no interleaving of no run
is the generation aborted, and the run never has to report that it was.
-/

namespace TxWorkload
namespace Workload

open Activity (Sized sound)
open Routine (Host Strand World)
open Run (Moves Reaches outcome?)

/-! ## What is drawn from -/

/-- Nothing that a generation draws from is empty, nothing that it divides by is zero, and its
probability is one. -/
structure Sound (w : Workload) : Prop where
  accounts : 0 < w.plan.generator.pool.accounts.length
  amounts : ∀ p ∈ w.plan.generator.patterns, p.least ≤ p.most
  weights : 0 < Random.total (Transaction.Pattern.weights w.plan.generator.patterns) ∧
    Random.total (Transaction.Pattern.weights w.plan.generator.patterns) <
      UInt32.size
  sizes : ∀ b, w.plan.bursts = some b → b.least ≤ b.most
  divisor : ∀ b, w.plan.bursts = some b → 0 < Nat.max 1 b.every.toNat
  probability : ∀ b, w.plan.bursts = some b →
    0.0 ≤ Activity.Burst.clamped b.probability ∧ Activity.Burst.clamped b.probability ≤ 1.0

theorem bursts_eq {w : Workload} {b : Config.Bursts} (h : w.plan.bursts = some b) :
    b = w.config.bursts := by
  have hmode : (if w.config.burstMode then some w.config.bursts else none) = some b := h
  split at hmode
  · cases hmode
    rfl
  · cases hmode

theorem sound_plan (w : Workload) : w.Sound := by
  rcases Config.bursts_of_accepted w.accepted with ⟨hrange, hzero, hone⟩
  exact
    { accounts := Nat.lt_of_lt_of_le (by decide) w.pool.enough
      amounts := fun p hp => Transaction.Pattern.least_le_most w.plan.generator.valid hp
      weights := ⟨Transaction.Pattern.total_pos w.plan.generator.valid, w.plan.generator.bounded⟩
      sizes := fun b hb => by rwa [bursts_eq hb]
      divisor := fun b _ => Nat.le_max_left 1 _
      probability := fun b hb => by
        rw [bursts_eq hb, Activity.Burst.clamped_eq hzero hone]
        exact ⟨hzero, hone⟩ }

/-! ## The invariant -/

/-- What holds in every phase of a run: the strands conform, all sizes that were rolled lie in the
range, and the generation is not aborted. -/
def Safe (b : Config.Bursts) : Run → Prop
  | .opening world banner => Sized b world ∧ banner.Conforms (sound b)
  | .working world generation watch _ => Sized b world ∧ watch.Conforms (sound b) ∧
      generation.Conforms (sound b) ∧ ∀ cause, generation ≠ .aborted cause
  | .judging world line watch => Sized b world ∧ line.Conforms (sound b) ∧ watch.Conforms (sound b)
  | .stopping world watch => Sized b world ∧ watch.Conforms (sound b)
  | .closing world last => Sized b world ∧ last.Conforms (sound b)

variable {w : Workload} {host : Host activities} {b : Config.Bursts} {x y : Run}

theorem Safe.sized (h : Safe b x) : Sized b x.world := by
  cases x with
  | opening _ _ => exact h.1
  | working _ _ _ _ => exact h.1
  | judging _ _ _ => exact h.1
  | stopping _ _ => exact h.1
  | closing _ _ => exact h.1

/-- A step of one strand keeps the sizes in the range, and the strand conforms as before. -/
theorem safe_advance {α : Type} {world world' : World activities} {s s' : Strand activities α}
    {token : Bool} (hworld : Sized b world) (hs : s.Conforms (sound b))
    (hstep : s.advance host token world = some (world', s')) :
    Sized b world' ∧ s'.Conforms (sound b) :=
  ⟨Activity.sized_advance hs hstep hworld, Strand.conforms_of_advance hs hstep⟩

theorem conforms_plan (w : Workload) : w.plan.run.Conforms (sound w.config.bursts) :=
  Activity.Plan.conforms_run w.fit_plan fun _ hb => bursts_eq hb

theorem conforms_active {α : Type} {p : Activity α} (hp : p.Within (sound b)) :
    (Strand.active p).Conforms (sound b) :=
  Routine.conforms_of_within hp

/-- Every move of a run is safe. -/
theorem safe_of_moves (h : Safe w.config.bursts x) (hm : Moves w host x y) :
    Safe w.config.bursts y := by
  cases hm with
  | banner hs => exact safe_advance h.1 h.2 hs
  | spawn _ =>
      refine ⟨h.1, ?_, conforms_plan w, fun _ => nofun⟩
      exact conforms_active (Activity.within_watch Activity.awaits_sound _ _)
  | generation hs =>
      rcases h with ⟨hworld, hwatch, hg, -⟩
      rcases safe_advance hworld hg hs with ⟨hworld', hg'⟩
      exact ⟨hworld', hwatch, hg', Activity.ne_aborted_advance hg hs⟩
  | watch hs =>
      rcases h with ⟨hworld, hwatch, hg⟩
      rcases safe_advance hworld hwatch hs with ⟨hworld', hwatch'⟩
      exact ⟨hworld', hwatch', hg⟩
  | turn => exact h
  | judge _ =>
      rcases h with ⟨hworld, hwatch, -⟩
      exact ⟨hworld, conforms_active (within_verdict Activity.reports_sound _), hwatch⟩
  | line hs =>
      rcases h with ⟨hworld, hline, hwatch⟩
      rcases safe_advance hworld hline hs with ⟨hworld', hline'⟩
      exact ⟨hworld', hline', hwatch⟩
  | beside hs =>
      rcases h with ⟨hworld, hline, hwatch⟩
      rcases safe_advance hworld hwatch hs with ⟨hworld', hwatch'⟩
      exact ⟨hworld', hline, hwatch'⟩
  | stop _ => exact ⟨h.1, h.2.2⟩
  | stopping hs => exact safe_advance h.1 h.2 hs
  | close _ => exact ⟨h.1, conforms_active (within_closing Activity.reports_sound)⟩
  | last hs => exact safe_advance h.1 h.2 hs
  | elapse _ _ =>
      cases x with
      | opening _ _ => exact h
      | working _ _ _ _ => exact h
      | judging _ _ _ => exact h
      | stopping _ _ => exact h
      | closing _ _ => exact h

theorem safe_startWith (w : Workload) (c : Stats.Counters) (world : World activities) :
    Safe w.config.bursts (w.startWith c world) :=
  ⟨fun _ hm => (List.not_mem_nil hm).elim,
    conforms_active (within_opening Activity.reports_sound w)⟩

/-- Every run that can be reached is safe. -/
theorem safe_of_reaches {c : Stats.Counters} {world : World activities}
    (h : Reaches w host (w.startWith c world) x) : Safe w.config.bursts x := by
  induction h with
  | refl => exact safe_startWith w c world
  | tail _ hm ih => exact safe_of_moves ih hm

/-! ## Safety -/

/-- A workload is made of settings exactly if it has them, and the pool that their keys give. -/
theorem make_eq_ok {config : Config} :
    make config = .ok w ↔ w.config = config ∧ poolOf config.accountKeys = .ok w.pool := by
  unfold make
  split
  · rename_i hflaw
    constructor
    · nofun
    · rintro ⟨rfl, -⟩
      rw [w.accepted] at hflaw
      cases hflaw
  · split
    · rename_i hpool
      rw [hpool]
      constructor
      · rintro ⟨⟩
        exact ⟨rfl, rfl⟩
      · rintro ⟨rfl, ⟨⟩⟩
        rfl
    · rename_i hpool
      rw [hpool]
      constructor
      · nofun
      · rintro ⟨-, ⟨⟩⟩

/-- Draws give up exactly on empty ranges and on what is no probability. A workload of accepted
settings asks for neither: in every interleaving of every run its generation is not aborted, so that
it can end in nothing but a count, and every size of a burst lies in the range of the settings. -/
theorem accepted_never_aborts (config : Config) (w : Workload) (hw : make config = .ok w)
    (host : Host activities) (c : Stats.Counters) (world : World activities) :
    (∀ supply cause,
      (∀ size, Random.index size supply = .abort cause ↔ size = 0 ∧ cause = .emptyRange) ∧
      (∀ least most,
        Random.pick least most supply = .abort cause ↔ most < least ∧ cause = .emptyRange) ∧
      ∀ p, Random.chance p supply = .abort cause ↔
        ¬ (0.0 ≤ p ∧ p ≤ 1.0) ∧ cause = .badProbability) ∧
    w.Sound ∧
    (∀ supply size rest, Activity.Burst.roll config.bursts supply = .value (some size) rest →
      config.bursts.least ≤ size ∧ size ≤ config.bursts.most) ∧
    (∀ n, Reaches w host (w.startWith c world) (Run.run w host n (w.startWith c world))) ∧
    ∀ x, Reaches w host (w.startWith c world) x →
      (∀ now generation watch turn, x = .working now generation watch turn →
        (∀ cause, generation ≠ .aborted cause) ∧
        ∀ outcome, outcome? generation = some outcome → ∃ sent, outcome = .ok sent) ∧
      ∀ size, .rolled (some size) ∈ x.world.marks →
        config.bursts.least ≤ size ∧ size ≤ config.bursts.most := by
  obtain ⟨rfl, -⟩ := make_eq_ok.1 hw
  refine ⟨fun supply cause => ?_, w.sound_plan, ?_, fun n => Run.reaches_run w host n _, ?_⟩
  · exact ⟨fun _ => Random.index_eq_abort, fun _ _ => Random.pick_eq_abort,
      fun _ => Random.chance_eq_abort⟩
  · intro supply size rest hroll
    exact Activity.Burst.yields_roll w.config.bursts supply (some size) rest hroll size rfl
  · intro x hx
    have hsafe := safe_of_reaches hx
    refine ⟨?_, fun size hsize => hsafe.sized _ hsize size rfl⟩
    rintro now generation watch turn rfl
    rcases hsafe with ⟨-, -, -, hne⟩
    refine ⟨hne, fun outcome houtcome => ?_⟩
    rcases Run.outcome_cases houtcome with ⟨sent, -, rfl⟩ | ⟨cause, rfl, -⟩
    · exact ⟨sent, rfl⟩
    · exact absurd rfl (hne cause)

/-- A burst of the greatest size there is, rolled where every size can be. -/
theorem accepted_never_aborts_greatest :
    let config : Config :=
      { bursts := { every := 1, probability := 1.0, least := 0, most := 18446744073709551615 } }
    let w : Workload := ⟨config, .development, by decide⟩
    let host : Host activities :=
      { transport := fun _ call =>
          if call.method = "eth_sendTransaction" then
            { answer := some { result := some (.text "0x2a") }, cancels := true }
          else { answer := some {} } }
    let world : World activities :=
      { supply := [0, 0, 9223372036854775808, 0, 0, 18446744073709551615, 0] }
    let x := Run.run w host 64 (w.startWith {} world)
    make config = .ok w ∧ .rolled (some 18446744073709551615) ∈ x.world.marks ∧
      config.bursts.least ≤ 18446744073709551615 ∧
      18446744073709551615 ≤ config.bursts.most := by
  intro config w host world x
  have hw : make config = .ok w := make_eq_ok.2 ⟨rfl, rfl⟩
  have hsize : 18446744073709551615 ∈ x.world.marks.filterMap Activity.Milestone.size? := by
    decide +kernel
  have hrolled : .rolled (some 18446744073709551615) ∈ x.world.marks := by
    rcases List.mem_filterMap.1 hsize with ⟨m, hm, hsize⟩
    rwa [Activity.Milestone.size?_eq_some.1 hsize] at hm
  rcases accepted_never_aborts config w hw host {} world with ⟨-, -, -, hruns, hsafe⟩
  exact ⟨hw, hrolled, (hsafe x (hruns 64)).2 _ hrolled⟩

end Workload
end TxWorkload
