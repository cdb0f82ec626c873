import TxWorkload.Account.Pool
import TxWorkload.Random.Weighted
import TxWorkload.Transaction.Pattern

/-!
# Generator — random transactions

A generator joins a pool of accounts and a valid table of patterns whose weights add up to a 32-bit
number. It draws the pattern, the pair of accounts, the amount and the price of gas, and for a
contract call the gas and the payload.
-/

namespace TxWorkload
namespace Transaction

/-! ## Limits -/

/-- The gas of every transaction without payload. -/
def transferGas : UInt64 := 21000

/-- The least and the greatest gas of a contract call. -/
def callGas : UInt64 × UInt64 := (50000, 200000)

/-- The least and the greatest price of gas. -/
def gasPrices : UInt64 × UInt64 := (1000000000, 50000000000)

/-- The greatest number of payload bytes. -/
def longestPayload : Nat := 100

/-! ## Generators -/

/-- A pool of accounts and a valid table of patterns. -/
structure Generator where
  pool : Account.Pool
  patterns : List Pattern
  valid : Pattern.tableFlaw? patterns = none
  bounded : Random.total (Pattern.weights patterns) < UInt32.size

namespace Generator

/-- The generator of a pool and a table. Weights that do not add up to a 32-bit number are not
refused in time. -/
def make (pool : Account.Pool) (patterns : List Pattern) : Except Failure Generator :=
  match valid : Pattern.tableFlaw? patterns with
  | some reason => .error (.error (.invalidPattern reason))
  | none =>
      if bounded : Random.total (Pattern.weights patterns) < UInt32.size then
        .ok { pool, patterns, valid, bounded }
      else .error (.abort .weightOverflow)

/-- The generator of a pool with the mix of a live network. -/
def ofPool (pool : Account.Pool) : Generator where
  pool := pool
  patterns := Pattern.defaults
  valid := by decide
  bounded := by decide

theorem weights_ne_nil (g : Generator) : Pattern.weights g.patterns ≠ [] := by
  have h := g.valid
  intro hw
  have hp : g.patterns = [] := by simpa [Pattern.weights] using hw
  simp [Pattern.tableFlaw?, hp] at h

/-! ## Draws -/

/-- The position of a pattern, drawn by weight. -/
def choose (g : Generator) : Random.Draw (Fin g.patterns.length) := do
  let i ← Random.weighted (Pattern.weights g.patterns) g.weights_ne_nil
  return i.cast (by simp [Pattern.weights])

/-- The gas and the payload of a transaction. -/
def gasAndPayload (kind : Kind) : Random.Draw (UInt64 × List UInt8) :=
  if kind.isContractCall then do
    let gas ← Random.pick callGas.1 callGas.2
    let size ← Random.index (longestPayload + 1)
    let payload ← Random.Draw.bytes size
    return (gas, payload)
  else return (transferGas, [])

/-- A transaction and its kind. -/
def generate (g : Generator) : Random.Draw (Transaction × Kind) := do
  let i ← g.choose
  let pattern := g.patterns[i]
  let (sender, recipient) ← g.pool.pair
  let value ← Random.pick pattern.least pattern.most
  let gasPrice ← Random.pick gasPrices.1 gasPrices.2
  let (gas, payload) ← gasAndPayload pattern.kind
  return (⟨sender.address, recipient.address, value, gas, gasPrice, payload⟩, pattern.kind)

end Generator
end Transaction
end TxWorkload
