import DownloadTriage.Decimal.Binary64
import DownloadTriage.Decimal.Duration

/-!
# Decimals of a fixed number of places

A double rounded to a grid of decimal places, a tie to the even neighbour.
-/

namespace DownloadTriage.Binary64

/-- The finite double without its sign, in units of `10 ^ -places`. -/
def inUnits (places : Nat) (x : Binary64) : Nat :=
  let (m, q) := x.parts
  roundDiv (m * Nat.pow 2 q * Nat.pow 10 places) (Nat.pow 2 1074)

/-- The text of a finite double with that many places. -/
def fixed (places : Nat) (x : Binary64) : String :=
  let n := x.inUnits places
  (if x.isNegative then "-" else "") ++ toString (n / Nat.pow 10 places) ++ "." ++
    String.ofList (Duration.padded places (n % Nat.pow 10 places))

end DownloadTriage.Binary64
