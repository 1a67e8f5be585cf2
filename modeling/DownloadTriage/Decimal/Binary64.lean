/-!
# Double precision numbers by their bits

A number of the binary64 format is kept as its 64 bits, so that it has decidable equality and every
operation on it is exact arithmetic on naturals. All rounding goes through `ofRatio`, which is to
nearest with ties to even.
-/

namespace DownloadTriage

/-- A number of the binary64 format: sign, eleven exponent bits, fifty-two fraction bits. -/
structure Binary64 where
  bits : UInt64
  deriving DecidableEq, Repr, Inhabited

namespace Binary64

/-- The sign bit. -/
def isNegative (x : Binary64) : Bool := x.bits ≥ 0x8000000000000000

/-- The bits without the sign. -/
def magnitude (x : Binary64) : Nat := x.bits.toNat % Nat.pow 2 63

/-- Neither an infinity nor a NaN. -/
def isFinite (x : Binary64) : Bool := x.magnitude < 0x7FF * Nat.pow 2 52

/-- The number with sign `neg` whose bits without sign are `n`. -/
def ofMagnitude (neg : Bool) (n : Nat) : Binary64 :=
  ⟨UInt64.ofNat (n + if neg then Nat.pow 2 63 else 0)⟩

/-- The finite number is `m * 2 ^ (q - 1074)` up to sign; this is `(m, q)`. -/
def parts (x : Binary64) : Nat × Nat :=
  let e := x.magnitude / Nat.pow 2 52
  let f := x.magnitude % Nat.pow 2 52
  if e = 0 then (f, 0) else (f + Nat.pow 2 52, e - 1)

/-- `num / den` to the nearest integer, a half to the even neighbour. -/
def roundDiv (num den : Nat) : Nat :=
  let q := num / den
  let r := num % den
  if 2 * r < den then q else if 2 * r > den then q + 1 else q + q % 2

/-- The quotient `num / den` in units of `base ^ k`, again as a quotient. -/
def inUnitsOf (base : Nat) (k : Int) (num den : Nat) : Nat × Nat :=
  if k < 0 then (num * Nat.pow base (-k).toNat, den) else (num, den * Nat.pow base k.toNat)

/-- The exponent `e` with `2 ^ e ≤ num / den < 2 ^ (e + 1)`. -/
def exponentOf (num den : Nat) : Int :=
  let e : Int := (Nat.log2 num : Int) - Nat.log2 den
  let (n, d) := inUnitsOf 2 e num den
  if d ≤ n then e else e - 1

/-- The number nearest to `num / den`, infinite when that is out of range. A carry out of the
fraction runs into the exponent, which is the right neighbour. -/
def ofRatio (neg : Bool) (num den : Nat) : Binary64 :=
  if num = 0 then ofMagnitude neg 0
  else
    let unit := max (exponentOf num den - 52) (-1074)
    let (n, d) := inUnitsOf 2 unit num den
    ofMagnitude neg
      (min ((unit + 1074).toNat * Nat.pow 2 52 + roundDiv n d) (0x7FF * Nat.pow 2 52))

/-- The number nearest to an integer. -/
def ofNat (neg : Bool) (n : Nat) : Binary64 := ofRatio neg n 1

/-- Zero, without sign. -/
def zero : Binary64 := ⟨0⟩

instance : Zero Binary64 := ⟨zero⟩

/-- The number with the other sign. -/
def negate (x : Binary64) : Binary64 := ofMagnitude (!x.isNegative) x.magnitude

/-- The rounded product of two finite numbers. -/
def mul (x y : Binary64) : Binary64 :=
  let (m, q) := x.parts
  let (n, r) := y.parts
  ofRatio (x.isNegative != y.isNegative) (m * n * Nat.pow 2 (q + r)) (Nat.pow 2 2148)

/-- The rounded quotient of two finite numbers, the second not zero. -/
def div (x y : Binary64) : Binary64 :=
  let (m, q) := x.parts
  let (n, r) := y.parts
  ofRatio (x.isNegative != y.isNegative) (m * Nat.pow 2 q) (n * Nat.pow 2 r)

/-- The number nearest to `10 ^ n`. -/
def pow10 (n : Nat) : Binary64 := ofRatio false (Nat.pow 10 n) 1

end Binary64

end DownloadTriage
