import TxWorkload.Activity.Generation
import TxWorkload.Proofs.Transaction.Secrecy
import TxWorkload.Routine.Strand

/-!
# Secrecy — private keys have no effect that can be seen

Bursts and generation use a generator for its transactions only. So with other keys for the same
addresses they are the same routines, and whatever the surroundings do, the runs are the same step
by step: in what is sent and when, in what is written, counted and noted, and in their results.
-/

namespace TxWorkload
namespace Activity

open Account (Pool)
open Routine (Solo)
open Transaction (Generator Pattern)

variable {g : Generator} {q : Pool}

namespace Burst

theorem turn_withPool (h : g.pool.addresses = q.addresses) (b : Config.Bursts)
    (endpoints : List Endpoint) (size sent : Nat) :
    turn b (g.withPool q) endpoints size sent = turn b g endpoints size sent := by
  simp only [turn, Generator.generate_withPool h]

theorem run_withPool (h : g.pool.addresses = q.addresses) (b : Config.Bursts)
    (endpoints : List Endpoint) (size : Nat) :
    run b (g.withPool q) endpoints size = run b g endpoints size := by
  have hturn : turn b (g.withPool q) endpoints size = turn b g endpoints size :=
    funext (turn_withPool h b endpoints size)
  rw [run, run, hturn]

end Burst

namespace Plan

/-- The same plan over another pool. -/
def withPool (p : Plan) (q : Pool) : Plan :=
  { p with generator := p.generator.withPool q }

variable {p : Plan}

theorem burst_withPool (h : p.generator.pool.addresses = q.addresses) (sent : Nat) :
    (p.withPool q).burst sent = p.burst sent := by
  have hrun : ∀ b size, Burst.run b (p.generator.withPool q) p.network.endpoints size =
      Burst.run b p.generator p.network.endpoints size :=
    fun b => Burst.run_withPool h b p.network.endpoints
  simp only [burst, withPool, hrun]

theorem turn_withPool (h : p.generator.pool.addresses = q.addresses) (s : Progress) :
    (p.withPool q).turn s = p.turn s := by
  have hgenerate : (p.withPool q).generator.generate = p.generator.generate :=
    Generator.generate_withPool h
  simp only [turn, hgenerate, burst_withPool h]
  rfl

theorem run_withPool (h : p.generator.pool.addresses = q.addresses) :
    (p.withPool q).run = p.run := by
  have hturn : (p.withPool q).turn = p.turn := funext (turn_withPool h)
  simp only [run, hturn]
  rfl

end Plan

/-- Pools with the same addresses cannot be told apart. Over either of them a table is accepted, any
sequence of draws gives the same findings and leaves the same words, and bursts and generation go
through the same states after any number of steps, whatever the transport and the clock do and
whenever the run is cancelled. A state holds the requests, the journal with its times, the counters,
the words that are left and, once there is one, the result. -/
theorem keys_unobservable {p q : Pool} (h : p.addresses = q.addresses) {patterns : List Pattern}
    {g : Generator} (hg : Generator.make p patterns = .ok g) :
    ∃ g', Generator.make q patterns = .ok g' ∧ g'.pool = q ∧
      (∀ inquiries supply, g'.findAll inquiries supply = g.findAll inquiries supply) ∧
      (∀ b endpoints size host world n,
        Solo.run host n (.start world (Burst.run b g' endpoints size)) =
          Solo.run host n (.start world (Burst.run b g endpoints size))) ∧
      ∀ plan : Plan, ∀ host world n,
        Solo.run host n (.start world { plan with generator := g' }.run) =
          Solo.run host n (.start world { plan with generator := g }.run) := by
  have hpool : g.pool.addresses = q.addresses := by
    rw [(Transaction.parts_of_make hg).1, h]
  refine ⟨g.withPool q, Generator.make_withPool hg, rfl, ?_, ?_, ?_⟩
  · intro inquiries supply
    rw [Generator.findAll_withPool hpool]
  · intro b endpoints size host world n
    rw [Burst.run_withPool hpool]
  · intro plan host world n
    have hrun := Plan.run_withPool (p := { plan with generator := g }) hpool
    exact congrArg (fun routine => Solo.run host n (.start world routine)) hrun

/-- Accounts of the development network with keys exchanged: what is drawn over the one pool is
drawn over the other, and a burst and a generation of two transactions each are the same. The second
word for a recipient is needed, as the first one picks the sender again. -/
theorem keys_unobservable_exchanged :
    let p : Pool :=
      ⟨[⟨"0x742A4D1A0Ac05A73A48F10C2E2d6b0E3f1b2e3F4", "first"⟩,
        ⟨"0x8B3A4D1A0Ac05A73A48F10C2E2d6b0E3f1b2e3F5", "second"⟩], by decide, by decide,
        ⟨_, .head _, _, .tail _ (.head _), by decide⟩⟩
    let q : Pool :=
      ⟨[⟨"0x742A4D1A0Ac05A73A48F10C2E2d6b0E3f1b2e3F4", "second"⟩,
        ⟨"0x8B3A4D1A0Ac05A73A48F10C2E2d6b0E3f1b2e3F5", "first"⟩], by decide, by decide,
        ⟨_, .head _, _, .tail _ (.head _), by decide⟩⟩
    let plan : Generator → Plan := fun generator =>
      { generator
        network := ⟨⟨"Validator", "http://one"⟩, ⟨"Sequencer", "http://two"⟩⟩
        txInterval := .ofSecs 3
        startupPoll := .ofSecs 10
        statsInterval := .ofSecs 300 }
    -- The fifth call is the second transaction of the generation, after three calls of its check.
    let host : Routine.Host activities :=
      { transport := fun past _ =>
          { answer := some { result := some (.text "0x2a") }, cancels := past.length = 4 } }
    let words : Random.Supply := [5, 0, 1, 0x8000000000000000, 0, 0]
    let deviation : Random.Supply := [0x8000000000000000]
    p.addresses = q.addresses ∧ p.accounts ≠ q.accounts ∧
      ∃ g', Generator.make q [⟨.transfer, 1, 7, 7⟩] = .ok g' ∧ g'.pool = q ∧
        g'.findAll [.pattern, .pair] [5, 0, 1, 0x8000000000000000, 9] =
          .value [.pattern ⟨.transfer, 1, 7, 7⟩,
            .pair "0x742A4D1A0Ac05A73A48F10C2E2d6b0E3f1b2e3F4"
              "0x8B3A4D1A0Ac05A73A48F10C2E2d6b0E3f1b2e3F5"] [9] ∧
        let burst := Solo.run host 64 (.start { supply := words ++ words }
          (Burst.run {} g' [⟨"Validator", "http://one"⟩] 2))
        let generation := Solo.run host 64
          (.start { supply := words ++ deviation ++ words ++ deviation } (plan g').run)
        burst.strand.result? = some 2 ∧ burst.world.counters.successful = 2 ∧
          generation.strand.result? = some 2 ∧ generation.world.counters.successful = 2 := by
  intro p q plan host words deviation
  let g : Generator := ⟨p, [⟨.transfer, 1, 7, 7⟩], by decide, by decide⟩
  have hmake : Generator.make p [⟨.transfer, 1, 7, 7⟩] = .ok g := rfl
  rcases keys_unobservable (p := p) (q := q) rfl hmake with
    ⟨g', hg', hpool, hfind, hburst, hplan⟩
  refine ⟨rfl, by decide, g', hg', hpool, ?_, ?_⟩
  · rw [hfind]
    decide +kernel
  · intro burst generation
    have hburst : burst = _ := hburst {} _ 2 host _ 64
    have hplan : generation = _ := hplan (plan g) host _ 64
    rw [hburst, hplan]
    decide +kernel

end Activity
end TxWorkload
