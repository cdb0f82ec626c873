import TxWorkload.Binary64.Shortest

/-!
# Fixed — a fixed number of decimal places

The exact value is rounded to the nearest multiple of the last place, a half to the even one.
-/

namespace TxWorkload
namespace Binary64

/-- Digits with a point before the last `places` of them. -/
def pointed (places n : Nat) : List Char :=
  let digits := Nat.toDigits 10 n
  let padded := List.replicate (places + 1 - digits.length) '0' ++ digits
  if places = 0 then padded
  else padded.take (padded.length - places) ++ '.' :: padded.drop (padded.length - places)

/-- A number with `places` decimal places. -/
def fixed (places : Nat) (x : Float) : String :=
  let signed := fun (negative : Bool) (text : String) => if negative then "-" ++ text else text
  match parts x with
  | .nan => "NaN"
  | .infinite negative => signed negative "inf"
  | .finite negative m q =>
      let r := ratio m q
      signed negative (String.ofList (pointed places (roundDiv (r.1 * Nat.pow 10 places) r.2)))

end Binary64
end TxWorkload
