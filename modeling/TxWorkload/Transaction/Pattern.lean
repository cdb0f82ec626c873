import TxWorkload.Error
import TxWorkload.Transaction.Basic

/-!
# Pattern — the mix of transactions

A pattern gives a kind of transaction its weight and the range of its amounts. A table of patterns
is valid if it is not empty and no weight is zero and no range is empty; the first flaw found
decides.
-/

namespace TxWorkload
namespace Transaction

/-- A kind of transaction, how often it comes, and the least and the greatest amount. -/
structure Pattern where
  kind : Kind
  weight : UInt32
  least : UInt64
  most : UInt64
  deriving DecidableEq, Repr, Inhabited

namespace Pattern

/-- What is wrong with a pattern. -/
def flaw? (p : Pattern) : Option String :=
  if p.weight = 0 then some s!"{p.kind.name} has zero weight"
  else if p.most < p.least then
    some s!"{p.kind.name} amount range {p.least}..={p.most} is empty"
  else none

/-- What is wrong with a table of patterns. -/
def tableFlaw? (patterns : List Pattern) : Option String :=
  if patterns.isEmpty then some "pattern table is empty" else patterns.findSome? flaw?

/-- Refuse a table that is not valid. -/
def validate (patterns : List Pattern) : Except Error Unit :=
  match tableFlaw? patterns with
  | some reason => .error (.invalidPattern reason)
  | none => .ok ()

/-- The mix of a live network. -/
def defaults : List Pattern :=
  [⟨.transfer, 60, 1, 1000⟩, ⟨.largeTransfer, 15, 1000, 10000⟩, ⟨.microTransfer, 20, 1, 10⟩,
    ⟨.contractCall, 5, 0, 100⟩]

/-- The weights of a table. -/
def weights (patterns : List Pattern) : List Nat :=
  patterns.map fun p => p.weight.toNat

end Pattern
end Transaction
end TxWorkload
