import DownloadTriage.Decimal.Binary64

/-!
# Shortest decimals

The fewest decimal digits that read back as a given double, and, among those, the nearest. Of the
two neighbours of the value on each decimal grid, coarsest grid first, the first that lies in the
interval of reals rounding to the value is taken.

How the digits are laid out is a `Layout`.
-/

namespace DownloadTriage

/-- Digits `d₁d₂…` and an exponent `e`, standing for `d₁.d₂… * 10 ^ e`. -/
structure Decimal where
  digits : List Char
  exponent : Int
  deriving DecidableEq, Repr

namespace Decimal

/-- The exponent `k` with `10 ^ k ≤ num / den < 10 ^ (k + 1)`, searched downwards from `k`. -/
def leadingExponent (num den : Nat) : Nat → Int → Int
  | 0, k => k
  | fuel + 1, k =>
    let (n, d) := Binary64.inUnitsOf 10 k num den
    if d ≤ n then k else leadingExponent num den fuel (k - 1)

/-- The digits of `n` on the grid of step `10 ^ k`, without the zeros that say nothing. -/
def ofGrid (n : Nat) (k : Int) : Decimal :=
  let ds := Nat.toDigits 10 n
  let kept := (ds.reverse.dropWhile (· == '0')).reverse
  ⟨if kept.isEmpty then ['0'] else kept, k + ds.length - 1⟩

/-- The interval of reals that round to a double, over a common denominator: the value, the two
ends, and whether the ends belong to it. -/
structure Interval where
  value : Nat
  low : Nat
  high : Nat
  den : Nat
  closed : Bool

/-- The interval of the double `m * 2 ^ (q - 1074)`. Below a power of two the neighbour is half as
far away. -/
def Interval.ofParts (m q : Nat) : Interval :=
  let scale := Nat.pow 2 q
  let below := if m = Nat.pow 2 52 ∧ 0 < q then 1 else 2
  ⟨4 * m * scale, (4 * m - below) * scale, (4 * m + 2) * scale, Nat.pow 2 1076, m % 2 = 0⟩

/-- Whether `n * 10 ^ k` rounds to the double. -/
def Interval.holds (i : Interval) (n : Nat) (k : Int) : Bool :=
  let (low, den) := Binary64.inUnitsOf 10 k i.low i.den
  let (high, _) := Binary64.inUnitsOf 10 k i.high i.den
  if i.closed then low ≤ n * den && n * den ≤ high else low < n * den && n * den < high

/-- Which of two equally near neighbours comes first. -/
inductive Tie where
  | toEven
  | away
  deriving DecidableEq, Repr

/-- Whether the lower of two equally near neighbours, `n`, comes first. -/
def Tie.lowerFirst (n : Nat) : Tie → Bool
  | .toEven => n % 2 = 0
  | .away => false

/-- The neighbours of the value on the grid `10 ^ k`, the nearer one first. -/
def Interval.neighbours (i : Interval) (tie : Tie) (k : Int) : List Nat :=
  let (num, den) := Binary64.inUnitsOf 10 k i.value i.den
  let n := num / den
  let r := num % den
  if 2 * r < den ∨ (2 * r = den ∧ tie.lowerFirst n = true) then [n, n + 1] else [n + 1, n]

/-- The first grid, from that of one digit on, with a neighbour that reads back. -/
def Interval.search (i : Interval) (tie : Tie) : Nat → Int → Decimal
  | 0, k => ofGrid ((i.neighbours tie k).headD 0) k
  | fuel + 1, k =>
    match (i.neighbours tie k).find? (i.holds · k) with
    | some n => ofGrid n k
    | none => i.search tie fuel (k - 1)

/-- The shortest decimal of a finite double, without its sign. -/
def shortest (tie : Tie) (x : Binary64) : Decimal :=
  let (m, q) := x.parts
  if m = 0 then ⟨['0'], 0⟩
  else
    let i := Interval.ofParts m q
    let start : Int := ((Nat.log2 m + q : Int) - 1074) * 30103 / 100000 + 1
    i.search tie 17 (leadingExponent i.value i.den 4 start)

/-- How a double is written: the choice between two equally near decimals, the exponents written
positionally, and the mark of a positive exponent in the other form. -/
structure Layout where
  tie : Tie
  lowest : Int
  highest : Int
  positive : String

/-- The layout of numbers in a document. A tie goes to the even digit. -/
def Layout.document : Layout := ⟨.toEven, -5, 15, "+"⟩

/-- The layout of numbers in a log line. A tie goes away from zero. -/
def Layout.logLine : Layout := ⟨.away, -4, 15, ""⟩

/-- The text of a decimal. Positionally there is always a digit after the point. -/
def layOut (l : Layout) (d : Decimal) : String :=
  let ds := d.digits
  if l.lowest ≤ d.exponent ∧ d.exponent ≤ l.highest then
    if d.exponent < 0 then
      "0." ++ String.ofList (List.replicate ((-d.exponent).toNat - 1) '0' ++ ds)
    else
      let whole := d.exponent.toNat + 1
      let padded := ds ++ List.replicate (whole - ds.length) '0'
      let rest := padded.drop whole
      String.ofList (padded.take whole ++ '.' :: if rest.isEmpty then ['0'] else rest)
  else
    let mantissa := match ds with
      | [] => []
      | [c] => [c]
      | c :: cs => c :: '.' :: cs
    String.ofList mantissa ++ "e" ++
      (if d.exponent < 0 then "-" else l.positive) ++ toString d.exponent.natAbs

end Decimal

/-- The text of a double. -/
def Binary64.text (l : Decimal.Layout) (x : Binary64) : String :=
  let sign := if x.isNegative then "-" else ""
  if x.isFinite then
    let d := Decimal.shortest l.tie x
    sign ++ Decimal.layOut l d
  else if x.magnitude = 0x7FF * Nat.pow 2 52 then sign ++ "inf"
  else "NaN"

end DownloadTriage
