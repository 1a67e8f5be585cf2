/-!
# Decimal numerals in settings

A numeral is a run of ASCII digits, which may follow one sign. Leading zeros mean nothing.
-/

namespace DownloadTriage.Numeral

/-- A digit. -/
def isDigit (c : Char) : Bool := '0' ≤ c && c ≤ '9'

/-- The number that a run of digits spells; an empty run spells none. -/
def digits? (cs : List Char) : Option Nat :=
  if cs ≠ [] ∧ cs.all isDigit then some (cs.foldl (fun n c => n * 10 + (c.toNat - 0x30)) 0)
  else none

/-- A natural number up to a bound. -/
def natural? (bound : Nat) (s : String) : Option Nat :=
  let value := match s.toList with
    | '+' :: cs => digits? cs
    | cs => digits? cs
  value.filter (· ≤ bound)

/-- A whole number that 64 bits hold. -/
def whole64? (s : String) : Option Int :=
  let value : Option Int := match s.toList with
    | '+' :: cs => (digits? cs).map Int.ofNat
    | '-' :: cs => (digits? cs).map fun n => -Int.ofNat n
    | cs => (digits? cs).map Int.ofNat
  value.filter fun i => Int64.minValue.toInt ≤ i ∧ i ≤ Int64.maxValue.toInt

end DownloadTriage.Numeral
