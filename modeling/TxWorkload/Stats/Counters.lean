/-!
# Counters — the shared counters and their atomic steps

Five 64-bit counters are shared by everything that runs. A single access is one atomic step: it
adds to a counter, raises it to a value, or only looks at it, and answers what the counter held
before. Addition wraps around.
-/

namespace TxWorkload
namespace Stats

/-- The names of the counters. -/
inductive Counter
  | total
  | successful
  | failed
  | lastBlock
  | blocksObserved
  deriving DecidableEq, Repr

/-- Transactions handed to submission, accepted by an endpoint and rejected by every endpoint;
the highest block seen and the number of blocks seen. -/
structure Counters where
  total : UInt64 := 0
  successful : UInt64 := 0
  failed : UInt64 := 0
  lastBlock : UInt64 := 0
  blocksObserved : UInt64 := 0
  deriving DecidableEq, Repr

namespace Counters

/-- What a counter holds. -/
def get (s : Counters) : Counter → UInt64
  | .total => s.total
  | .successful => s.successful
  | .failed => s.failed
  | .lastBlock => s.lastBlock
  | .blocksObserved => s.blocksObserved

/-- The counters with one of them replaced. -/
def set (s : Counters) (c : Counter) (value : UInt64) : Counters :=
  match c with
  | .total => { s with total := value }
  | .successful => { s with successful := value }
  | .failed => { s with failed := value }
  | .lastBlock => { s with lastBlock := value }
  | .blocksObserved => { s with blocksObserved := value }

end Counters

/-! ## Atomic steps -/

/-- One atomic access to a counter. -/
inductive Access
  | add (counter : Counter) (amount : UInt64)
  | raise (counter : Counter) (value : UInt64)
  | load (counter : Counter)
  deriving DecidableEq, Repr

namespace Access

/-- The counter that an access touches. -/
def counter : Access → Counter
  | .add c _ => c
  | .raise c _ => c
  | .load c => c

/-- What the counter holds afterwards. -/
def update (old : UInt64) : Access → UInt64
  | .add _ amount => old + amount
  | .raise _ value => if old < value then value else old
  | .load _ => old

/-- The counters after an access, and what the counter held before. -/
def apply (a : Access) (s : Counters) : UInt64 × Counters :=
  let old := s.get a.counter
  (old, s.set a.counter (a.update old))

end Access
end Stats
end TxWorkload
