import TxWorkload.Binary64.Parts

/-!
# Duration — spans of time with nanosecond resolution

A duration is a number of whole seconds below `2 ^ 64` and a nanosecond part below one second.
Arithmetic that would leave this range saturates at `Duration.max`.
-/

namespace TxWorkload

/-- Nanoseconds in one second. -/
def nanosPerSec : Nat := 1000000000

/-- A span of time: whole seconds and a nanosecond part below one second. -/
structure Duration where
  secs : UInt64
  nanos : UInt32
  nanos_lt : nanos.toNat < nanosPerSec
  deriving DecidableEq

namespace Duration

/-! ## Values -/

/-- The whole span in nanoseconds. -/
def toNanos (d : Duration) : Nat :=
  d.secs.toNat * nanosPerSec + d.nanos.toNat

/-- A number of whole seconds. -/
def ofSecs (secs : UInt64) : Duration :=
  ⟨secs, 0, by decide⟩

/-- The longest span. -/
def max : Duration :=
  ⟨UInt64.ofNat (UInt64.size - 1), 999999999, by decide⟩

theorem toNat_ofNat_mod_lt (n : Nat) :
    (UInt32.ofNat (n % nanosPerSec)).toNat < nanosPerSec := by
  have h : n % nanosPerSec < nanosPerSec := Nat.mod_lt _ (by decide)
  rw [UInt32.toNat_ofNat']
  exact Nat.lt_of_le_of_lt (Nat.mod_le _ _) h

/-- Seconds and nanoseconds from one count of nanoseconds, if the seconds fit. -/
def ofNanos? (n : Nat) : Option Duration :=
  if n / nanosPerSec < UInt64.size then
    some
      { secs := UInt64.ofNat (n / nanosPerSec)
        nanos := UInt32.ofNat (n % nanosPerSec)
        nanos_lt := toNat_ofNat_mod_lt n }
  else none

/-- Milliseconds as a span; the longest span if there are too many. -/
def ofMillis (n : Nat) : Duration :=
  (ofNanos? (n * 1000000)).getD max

/-! ## Order -/

instance : LE Duration where
  le a b := a.toNanos ≤ b.toNanos

instance : LT Duration where
  lt a b := a.toNanos < b.toNanos

instance (a b : Duration) : Decidable (a ≤ b) :=
  inferInstanceAs (Decidable (a.toNanos ≤ b.toNanos))

instance (a b : Duration) : Decidable (a < b) :=
  inferInstanceAs (Decidable (a.toNanos < b.toNanos))

/-! ## Arithmetic -/

/-- A span multiplied by a factor. The nanosecond part is multiplied first and its whole seconds
are carried; if the seconds do not fit, the result is the longest span. -/
def scale (d : Duration) (factor : UInt32) : Duration :=
  let nanos := d.nanos.toNat * factor.toNat
  let secs := d.secs.toNat * factor.toNat + nanos / nanosPerSec
  if secs < UInt64.size then
    { secs := UInt64.ofNat secs
      nanos := UInt32.ofNat (nanos % nanosPerSec)
      nanos_lt := toNat_ofNat_mod_lt nanos }
  else max

/-! ## Seconds as a floating-point number -/

/-- The span in seconds: the whole part and the fraction are rounded, and so is their sum. -/
def toSeconds (d : Duration) : Float :=
  d.secs.toFloat + d.nanos.toFloat / 1e9

/-- The span of a number of seconds, to the nearest nanosecond, a half to the even one. There is
none for a negative number, for one that is too large and for one that is no number. -/
def ofSeconds? (x : Float) : Option Duration :=
  match Binary64.parts x with
  | .finite negative m q =>
      let r := Binary64.ratio m q
      if negative && m != 0 then none
      else ofNanos? (Binary64.roundDiv (r.1 * nanosPerSec) r.2)
  | _ => none

end Duration
end TxWorkload
