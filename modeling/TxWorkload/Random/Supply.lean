import TxWorkload.Error

/-!
# Supply — programs that draw random words

Randomness comes as a list of 64-bit words. A draw takes words off its front; it yields a value,
runs dry when the words end too early, or aborts when it is asked for the impossible. Drawing from
a longer supply gives the same value, so a supply stands for every stream that it begins.
-/

namespace TxWorkload
namespace Random

/-- The words that are still to be drawn. -/
abbrev Supply := List UInt64

/-- The outcome of a draw. -/
inductive Drawn (α : Type) where
  | value (a : α) (rest : Supply)
  | dry
  | abort (cause : Abort)
  deriving DecidableEq

instance Drawn.decidableDry {α : Type} : (x : Drawn α) → Decidable (x = .dry)
  | .value _ _ => .isFalse fun h => by cases h
  | .dry => .isTrue rfl
  | .abort _ => .isFalse fun h => by cases h

/-- A program that draws words. -/
def Draw (α : Type) := Supply → Drawn α

namespace Draw

/-- Draw nothing. -/
def done {α : Type} (a : α) : Draw α :=
  fun supply => .value a supply

/-- One draw after another. -/
def andThen {α β : Type} (d : Draw α) (next : α → Draw β) : Draw β :=
  fun supply =>
    match d supply with
    | .value a rest => next a rest
    | .dry => .dry
    | .abort cause => .abort cause

instance : Monad Draw where
  pure := done
  bind := andThen

/-- Give up. -/
def abort {α : Type} (cause : Abort) : Draw α :=
  fun _ => .abort cause

/-! ## Words -/

/-- One word. -/
def word : Draw UInt64
  | [] => .dry
  | w :: rest => .value w rest

/-- Draw words until one of them is accepted. -/
def first {β : Type} (accept : UInt64 → Option β) : Draw β
  | [] => .dry
  | w :: rest =>
      match accept w with
      | some b => .value b rest
      | none => first accept rest

/-- The bytes of a word, least significant first. -/
def wordBytes (w : UInt64) : List UInt8 :=
  (List.range 8).map fun i => (w >>> UInt64.ofNat (8 * i)).toUInt8

/-- Several words, in order. -/
def words : Nat → Draw (List UInt64)
  | 0 => pure []
  | n + 1 => do
      let w ← word
      let ws ← words n
      return w :: ws

/-- Bytes from as few words as hold them; what is left of the last word is dropped. -/
def bytes (n : Nat) : Draw (List UInt8) := do
  let ws ← words ((n + 7) / 8)
  return (ws.flatMap wordBytes).take n

end Draw
end Random
end TxWorkload
