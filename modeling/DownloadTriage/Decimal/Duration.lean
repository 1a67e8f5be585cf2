/-!
# Durations in words

A span of nanoseconds is written in the largest of four units that it fills, as a decimal without
trailing zeros.
-/

namespace DownloadTriage.Duration

/-- The digits of `n`, at least `width` of them. -/
def padded (width n : Nat) : List Char :=
  let ds := Nat.toDigits 10 n
  List.replicate (width - ds.length) '0' ++ ds

/-- The list without the zeros at its end. -/
def withoutTrailingZeros (cs : List Char) : List Char :=
  (cs.reverse.dropWhile (· = '0')).reverse

/-- The quotient by `10 ^ places` as a decimal. -/
def decimal (n places : Nat) : String :=
  let fraction := withoutTrailingZeros (padded places (n % Nat.pow 10 places))
  let whole := toString (n / Nat.pow 10 places)
  if n % Nat.pow 10 places = 0 then whole else whole ++ "." ++ String.ofList fraction

/-- The text of a span of nanoseconds. -/
def text (nanoseconds : Nat) : String :=
  if 1000000000 ≤ nanoseconds then decimal nanoseconds 9 ++ "s"
  else if 1000000 ≤ nanoseconds then decimal nanoseconds 6 ++ "ms"
  else if 1000 ≤ nanoseconds then decimal nanoseconds 3 ++ "µs"
  else toString nanoseconds ++ "ns"

end DownloadTriage.Duration
