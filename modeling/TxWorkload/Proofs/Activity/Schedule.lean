import TxWorkload.Proofs.Activity.Bystander
import TxWorkload.Proofs.Routine.Course

/-!
# Schedule — when the generation sends its transactions

All that the generation does, in order and in time: it checks the network until a node answers, and
then makes one round after another until the run is cancelled. A round sends one transaction, casts
the dice for a burst if its number is a multiple of the interval between rolls, sends the burst, and
ends with a pause; the next round begins exactly when the pause is over. So the number of rounds
decides how often the dice are cast.
-/

namespace TxWorkload
namespace Activity

open Routine
open Routine (Act Deed Host Point Stretch Naps Turns World)

/-! ## What is done -/

/-- A milestone that is noted at a point. -/
def noted (x : Point) (m : Milestone) : Deed activities :=
  ⟨x.time, x.cancelled, .marks m⟩

/-- A question that a check asks. -/
def asksState (act : Act activities) : Prop :=
  ∃ call, inquires call ∧ act = .asks call

/-- The offer of a transaction to one of some endpoints. -/
def asksFor (t : Transaction) (endpoints : List Endpoint) (act : Act activities) : Prop :=
  ∃ endpoint ∈ endpoints, act = .asks ⟨endpoint.url, "eth_sendTransaction", .array [t.encode]⟩

/-- What a check makes of the outcome of its poll. -/
def reported : Except Error Report → Report
  | .ok report => report
  | .error _ => {}

/-- One check of the network: nodes are asked for their state, and the outcome is noted. -/
inductive Checks (x : Point) : List (Deed activities) → Except Error Report → Point → Prop
  | intro {y : Point} {asked : List (Deed activities)} {outcome : Except Error Report}
      (hasked : Stretch asksState x asked y) :
      Checks x (asked ++ [noted y (.polled outcome)]) outcome y

namespace Plan

/-- The checks of the network. They end when one of them finds a node that answers, or without such
a check when the run is cancelled. -/
inductive Readies (p : Plan) : Point → List (Deed activities) → Bool → Point → Prop
  | cancelled {x : Point} (hx : x.cancelled = true) : Readies p x [] false x
  | cutShort {x y : Point} {asked : List (Deed activities)} (hx : x.cancelled = false)
      (hasked : Stretch asksState x asked y) (hy : y.cancelled = true) :
      Readies p x asked false y
  | ready {x y : Point} {checked : List (Deed activities)} {report : Report}
      (hx : x.cancelled = false) (hcheck : Checks x checked (.ok report) y)
      (hup : report.anyUp = true) : Readies p x checked true y
  | last {x y z : Point} {checked slept : List (Deed activities)}
      {outcome : Except Error Report} (hx : x.cancelled = false)
      (hcheck : Checks x checked outcome y)
      (hdown : (reported outcome).anyUp = false)
      (hnap : Naps p.startupPoll y slept true z) : Readies p x (checked ++ slept) false z
  | again {x y z z' : Point} {checked slept rest : List (Deed activities)}
      {outcome : Except Error Report} {ready : Bool} (hx : x.cancelled = false)
      (hcheck : Checks x checked outcome y)
      (hdown : (reported outcome).anyUp = false)
      (hnap : Naps p.startupPoll y slept false z) (hrest : Readies p z rest ready z') :
      Readies p x (checked ++ slept ++ rest) ready z'

/-- A transaction is drawn and submitted; time goes on only while it is offered to endpoints. -/
inductive Sends (p : Plan) (x : Point) : List (Deed activities) → Point → Prop
  | intro {drawn : Transaction × Kind} {x' y : Point}
      {asked : List (Deed activities)} {hash : Option String}
      (hdraw : x.Draws p.generator.generate drawn x')
      (hoffer : Stretch (asksFor drawn.1 p.network.endpoints) x' asked y) :
      Sends p x (noted x .submitting :: (asked ++ [noted y (.submitted hash)])) y

/-- The rest of a burst that has sent some of its transactions, and how many it has sent in the
end. -/
inductive Bursts (p : Plan) (b : Config.Bursts) (size : Nat) :
    Nat → Point → List (Deed activities) → Nat → Point → Prop
  | ended {sent : Nat} {x : Point} (hended : size ≤ sent ∨ x.cancelled = true) :
      Bursts p b size sent x [] sent x
  | last {sent : Nat} {x y z : Point} {submitted slept : List (Deed activities)}
      (hlt : sent < size) (hx : x.cancelled = false) (hsends : p.Sends x submitted y)
      (hnap : Naps b.pause y slept true z) :
      Bursts p b size sent x (submitted ++ slept) (sent + 1) z
  | next {sent total : Nat} {x y z z' : Point} {submitted slept rest : List (Deed activities)}
      (hlt : sent < size) (hx : x.cancelled = false) (hsends : p.Sends x submitted y)
      (hnap : Naps b.pause y slept false z) (hrest : Bursts p b size (sent + 1) z rest total z') :
      Bursts p b size sent x (submitted ++ slept ++ rest) total z'

/-- What follows the transaction of some number: the dice are cast for a burst if the number is a
multiple of the interval between rolls, and a burst that is due is sent. -/
inductive Rolls (p : Plan) (number : Nat) (x : Point) : List (Deed activities) → Point → Prop
  | off (h : p.bursts = none) : Rolls p number x [] x
  | notDue {b : Config.Bursts} (h : p.bursts = some b)
      (hdue : ¬ max 1 b.every.toNat ∣ number) : Rolls p number x [] x
  | quiet {b : Config.Bursts} {y : Point} (h : p.bursts = some b)
      (hdue : max 1 b.every.toNat ∣ number) (hroll : x.Draws (Burst.roll b) none y) :
      Rolls p number x [noted x (.rolled none)] y
  | burst {b : Config.Bursts} {size : UInt64} {sent : Nat} {y z : Point}
      {during : List (Deed activities)} (h : p.bursts = some b)
      (hdue : max 1 b.every.toNat ∣ number) (hroll : x.Draws (Burst.roll b) (some size) y)
      (hburst : p.Bursts b size.toNat 0 y during sent z) :
      Rolls p number x
        (noted x (.rolled (some size)) ::
          (during ++ [noted z (.burstEnded sent)])) z

/-- The round of some number, and whether the run is cancelled in the end. The pause is drawn when
the transaction and its burst are done, and begins at once. -/
inductive Round (p : Plan) (number : Nat) (x : Point) :
    List (Deed activities) → Bool → Point → Prop
  | intro {y z z' x' : Point} {submitted rolled slept : List (Deed activities)} {d : Duration}
      {c : Bool} (hx : x.cancelled = false) (hsends : p.Sends x submitted y)
      (hrolls : p.Rolls number y rolled z) (hpause : z.Draws (pause p.txInterval) d z')
      (hnap : Naps d z' slept c x') :
      Round p number x (submitted ++ rolled ++ noted z (.paced d) :: slept) c x'

/-- All rounds after some number of them, and the number of rounds in the end. -/
inductive Rounds (p : Plan) : Nat → Point → List (Deed activities) → Nat → Point → Prop
  | cancelled {k : Nat} {x : Point} (hx : x.cancelled = true) : Rounds p k x [] k x
  | last {k : Nat} {x y : Point} {deeds : List (Deed activities)}
      (hround : p.Round (k + 1) x deeds true y) : Rounds p k x deeds (k + 1) y
  | next {k n : Nat} {x y z : Point} {deeds rest : List (Deed activities)}
      (hround : p.Round (k + 1) x deeds false y) (hrest : Rounds p (k + 1) y rest n z) :
      Rounds p k x (deeds ++ rest) n z

end Plan

variable {p : Plan} {deeds : List (Deed activities)}

/-- A draw takes no time. -/
theorem noted_of_draws {α : Type} {d : Random.Draw α} {a : α} {x y : Point} (h : x.Draws d a y)
    (m : Milestone) : noted y m = noted x m := by
  rcases h with ⟨rest, -, rfl⟩
  rfl

/-! ## The dice -/

/-- Whether the dice are cast. -/
def isRoll : Act activities → Bool
  | .marks (.rolled _) => true
  | _ => false

/-- How often the dice are cast. -/
def rolls (deeds : List (Deed activities)) : Nat :=
  deeds.countP fun deed => isRoll deed.act

@[simp]
theorem rolls_nil : rolls [] = 0 :=
  rfl

@[simp]
theorem rolls_noted (x : Point) (m : Milestone) (deeds : List (Deed activities)) :
    rolls (noted x m :: deeds) = rolls deeds + if isRoll (.marks m) then 1 else 0 :=
  List.countP_cons

@[simp]
theorem rolls_append (deeds more : List (Deed activities)) :
    rolls (deeds ++ more) = rolls deeds + rolls more :=
  List.countP_append

section

variable {x y : Point}

theorem rolls_of_stretch {kind : Act activities → Prop} (h : Stretch kind x deeds y)
    (hkind : ∀ act, kind act → isRoll act = false) : rolls deeds = 0 := by
  apply List.countP_eq_zero.2
  intro deed hdeed
  simp [hkind _ (h.kinds deed hdeed)]

theorem rolls_of_naps {d : Duration} {c : Bool} (h : Naps d x deeds c y) : rolls deeds = 0 := by
  cases h with
  | leftOut _ => rfl
  | slept _ => rfl
  | cutShort _ _ _ => rfl

theorem Checks.rolls_eq {outcome : Except Error Report} (h : Checks x deeds outcome y) :
    rolls deeds = 0 := by
  cases h with
  | intro hasked =>
      have hnone := rolls_of_stretch hasked (by rintro _ ⟨call, -, rfl⟩; rfl)
      simp [hnone, isRoll]

namespace Plan

theorem Readies.rolls_eq {ready : Bool} (h : p.Readies x deeds ready y) : rolls deeds = 0 := by
  induction h with
  | cancelled _ => rfl
  | cutShort _ hasked _ => exact rolls_of_stretch hasked (by rintro _ ⟨call, -, rfl⟩; rfl)
  | ready _ hcheck _ => exact hcheck.rolls_eq
  | last _ hcheck _ hnap => simp [hcheck.rolls_eq, rolls_of_naps hnap]
  | again _ hcheck _ hnap _ ih => simp [hcheck.rolls_eq, rolls_of_naps hnap, ih]

theorem Sends.rolls_eq (h : p.Sends x deeds y) : rolls deeds = 0 := by
  cases h with
  | intro _ hoffer =>
      have hnone := rolls_of_stretch hoffer (by rintro _ ⟨endpoint, -, rfl⟩; rfl)
      simp [hnone, isRoll]

theorem Bursts.rolls_eq {b : Config.Bursts} {size sent total : Nat}
    (h : p.Bursts b size sent x deeds total y) : rolls deeds = 0 := by
  induction h with
  | ended _ => rfl
  | last _ _ hsends hnap => simp [hsends.rolls_eq, rolls_of_naps hnap]
  | next _ _ hsends hnap _ ih => simp [hsends.rolls_eq, rolls_of_naps hnap, ih]

/-- How often the dice are cast in a number of rounds: once for each multiple of the interval
between rolls. -/
def casts (p : Plan) (rounds : Nat) : Nat :=
  match p.bursts with
  | none => 0
  | some b => rounds / max 1 b.every.toNat

theorem casts_zero (p : Plan) : p.casts 0 = 0 := by
  unfold casts
  cases p.bursts with
  | none => rfl
  | some b => exact Nat.zero_div _

theorem Rolls.casts_succ {k : Nat} (h : p.Rolls (k + 1) x deeds y) :
    p.casts k + rolls deeds = p.casts (k + 1) := by
  unfold casts
  cases h with
  | off hbursts => simp [hbursts]
  | notDue hbursts hdue => simp [hbursts, Nat.succ_div, hdue]
  | quiet hbursts hdue _ => simp [hbursts, Nat.succ_div, hdue, isRoll]
  | burst hbursts hdue _ hburst =>
      simp [hbursts, Nat.succ_div, hdue, hburst.rolls_eq, isRoll]

theorem Round.casts_succ {k : Nat} {c : Bool} (h : p.Round (k + 1) x deeds c y) :
    p.casts k + rolls deeds = p.casts (k + 1) := by
  cases h with
  | intro _ hsends hrolls _ hnap =>
      simp [hsends.rolls_eq, rolls_of_naps hnap, hrolls.casts_succ, isRoll]

theorem Rounds.casts_eq {k n : Nat} (h : p.Rounds k x deeds n y) :
    p.casts k + rolls deeds = p.casts n := by
  induction h with
  | cancelled _ => rfl
  | last hround => exact hround.casts_succ
  | next hround _ ih => rw [rolls_append, ← Nat.add_assoc, hround.casts_succ, ih]

/-- The checks cast no dice, so all rolls are those of the rounds. -/
theorem casts_of_readies {n : Nat} {ready : Bool} {checks rounds : List (Deed activities)}
    {z : Point} (hready : p.Readies x checks ready y)
    (hrounds : ready = true → p.Rounds 0 y rounds n z)
    (hnone : ready = false → rounds = [] ∧ n = 0 ∧ z = y) :
    rolls (checks ++ rounds) = p.casts n := by
  rw [rolls_append, hready.rolls_eq, Nat.zero_add]
  cases ready with
  | true =>
      have hcasts := (hrounds rfl).casts_eq
      rwa [casts_zero, Nat.zero_add] at hcasts
  | false =>
      rcases hnone rfl with ⟨rfl, rfl, -⟩
      exact p.casts_zero.symm

/-! ## The end -/

/-- Without a node that answers, the run is cancelled. -/
theorem Readies.cancelled_of_false (h : p.Readies x deeds false y) : y.cancelled = true := by
  generalize hready : false = ready at h
  induction h with
  | cancelled hx => exact hx
  | cutShort _ _ hy => exact hy
  | ready _ _ _ => cases hready
  | last _ _ _ hnap => exact hnap.cancelled_of_true
  | again _ _ _ _ _ ih => exact ih hready

theorem Rounds.ends_cancelled {k n : Nat} (h : p.Rounds k x deeds n y) : y.cancelled = true := by
  induction h with
  | cancelled hx => exact hx
  | last hround =>
      cases hround with
      | intro _ _ _ _ hnap => exact hnap.cancelled_of_true
  | next _ _ ih => exact ih

/-- In a run that is cancelled there are no more rounds. -/
theorem Rounds.of_cancelled {k n : Nat} (h : p.Rounds k x deeds n y) (hx : x.cancelled = true) :
    deeds = [] ∧ n = k ∧ y = x := by
  have hnone : ∀ {deeds c y}, ¬ p.Round (k + 1) x deeds c y := by
    rintro _ _ _ ⟨hactive, _, _, _, _⟩
    cases hx.symm.trans hactive
  cases h with
  | cancelled _ => exact ⟨rfl, rfl, rfl⟩
  | last hround => exact absurd hround hnone
  | next hround _ => exact absurd hround hnone

end Plan

end

end Activity
end TxWorkload
