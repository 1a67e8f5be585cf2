import DownloadTriage.Decimal.Fixed
import DownloadTriage.Decimal.Shortest
import DownloadTriage.Process.Quoted
import DownloadTriage.Text.Hex

/-!
# What commands print

Escapes, and the texts that `echo` and `printf` make of their arguments. A shell and a program of
that name differ in the escapes that they know and in how they complain.
-/

namespace DownloadTriage.Print

open Script

/-- Who prints. -/
inductive Dialect where
  | shell
  | program
  deriving DecidableEq, Repr

/-! ## Escapes -/

/-- Escapes of one letter and the bytes for which they stand. -/
def letterEscape? (d : Dialect) (b : UInt8) : Option UInt8 :=
  let all := [(byte 'a', (7 : UInt8)), (byte 'b', 8), (byte 'f', 12), (byte 'n', 10),
    (byte 'r', 13), (byte 't', 9), (byte 'v', 11), (byte 'e', 27), (byte '\\', byte '\\')]
  match d with
  | .shell => all.lookup b
  | .program => (all ++ [(byte '"', byte '"')]).lookup b

/-- An octal digit. -/
def octal? (b : UInt8) : Option Nat :=
  if byte '0' ≤ b ∧ b ≤ byte '7' then some (b.toNat - 48) else none

/-- The digits at the start, at most `k`, as a number, and the rest. -/
def digitsFrom (base : Nat) (digit? : UInt8 → Option Nat) : Nat → Nat → Bytes → Nat × Bytes
  | 0, n, bs => (n, bs)
  | _ + 1, n, [] => (n, [])
  | k + 1, n, b :: bs =>
    match digit? b with
    | some d => digitsFrom base digit? k (n * base + d) bs
    | none => (n, b :: bs)

/-- The bytes for which an escape stands, after its backslash, and the rest. -/
def escape (d : Dialect) (bs : Bytes) : Bytes × Bytes :=
  match bs with
  | [] => ([byte '\\'], [])
  | b :: rest =>
    if (octal? b).isSome then
      let r := digitsFrom 8 octal? 3 0 bs
      ([UInt8.ofNat r.1], r.2)
    else if d = .program ∧ b = byte 'x' ∧ ((rest.head?).bind Hex.value?).isSome then
      let r := digitsFrom 16 Hex.value? 2 0 rest
      ([UInt8.ofNat r.1], r.2)
    else if d = .program ∧ b = byte 'u' then
      let r := digitsFrom 16 Hex.value? 4 0 rest
      if r.1 < 0x80 then ([UInt8.ofNat r.1], r.2)
      else
        let digits := ((Hex.digits r.1).map Char.toUpper).map byte
        (bytes "\\u" ++ List.replicate (4 - digits.length) 0x30 ++ digits, r.2)
    else match letterEscape? d b with
      | some c => ([c], rest)
      | none => ([byte '\\'], bs)

/-- A text with its escapes replaced, in at most `n` steps, and whether it ends everything. -/
def unescaped (d : Dialect) : Nat → Bytes → Bytes × Bool
  | 0, _ => ([], false)
  | _, [] => ([], false)
  | n + 1, b :: bs =>
    if b ≠ byte '\\' then
      let r := unescaped d n bs
      (b :: r.1, r.2)
    else if bs.head? = some (byte 'c') then ([], true)
    else
      let digits := if bs.head? = some (byte '0') ∧ ((bs.drop 1).head?.bind octal?).isSome
        then bs.drop 1 else bs
      let e := escape d digits
      let r := unescaped d n e.2
      (e.1 ++ r.1, r.2)

/-- The words with a blank between two. -/
def joined (args : List Bytes) : Bytes := [0x20].intercalate args

/-- What a shell's `echo` prints: escapes always mean something, and `-n` in front leaves out the
end of the line. -/
def echo (args : List Bytes) : Bytes :=
  let silent := args.head? = some (bytes "-n")
  let text := joined (if silent then args.drop 1 else args)
  let (shown, stopped) := unescaped .shell text.length text
  shown ++ if silent ∨ stopped then [] else [0x0A]

/-- The options in front of what the program `echo` prints. -/
def echoOptions : List Bytes → Bytes × List Bytes
  | [] => ([], [])
  | a :: as =>
    match a with
    | 0x2D :: letters =>
      if letters ≠ [] ∧ letters.all (bytes "neE").contains then
        let (more, rest) := echoOptions as
        (letters ++ more, rest)
      else ([], a :: as)
    | _ => ([], a :: as)

/-- What the program `echo` prints: escapes mean something only if asked for. -/
def echoProgram (args : List Bytes) : Bytes :=
  let (options, words) := echoOptions args
  let text := joined words
  let active := (options.filter (· ≠ byte 'n')).getLast? = some (byte 'e')
  let (shown, stopped) := if active then unescaped .program text.length text else (text, false)
  shown ++ if options.contains (byte 'n') ∨ stopped then [] else [0x0A]

/-! ## Formats -/

/-- How a value is laid out. -/
structure Layout where
  left : Bool
  zeros : Bool
  plus : Bool
  blank : Bool
  marked : Bool
  width : Nat
  places : Option Nat
  deriving DecidableEq, Repr

/-- Nothing asked for. -/
def Layout.plain : Layout := ⟨false, false, false, false, false, 0, none⟩

/-- A text in a field; the sign or mark in front of it stays in front of zeros. -/
def Layout.field (l : Layout) (zeros : Bool) (front body : Bytes) : Bytes :=
  let missing := l.width - (front.length + body.length)
  if l.left then front ++ body ++ List.replicate missing 0x20
  else if zeros then front ++ List.replicate missing 0x30 ++ body
  else List.replicate missing 0x20 ++ front ++ body

/-- A text cut to its places, in a field. -/
def Layout.text (l : Layout) (bs : Bytes) : Bytes :=
  l.field false [] (match l.places with
    | some n => bs.take n
    | none => bs)

/-- The sign in front of a number. -/
def Layout.sign (l : Layout) (negative : Bool) : Bytes :=
  if negative then bytes "-" else if l.plus then bytes "+" else if l.blank then bytes " " else []

/-- Digits of a whole number in a field. -/
def Layout.whole (l : Layout) (front digits : Bytes) : Bytes :=
  let body := match l.places with
    | some n => List.replicate (n - digits.length) 0x30 ++ digits
    | none => digits
  l.field (l.zeros && l.places.isNone) front body

/-- A whole number by the letter of its form. -/
def Layout.number (l : Layout) (form : UInt8) (n : Int) : Bytes :=
  let unsigned := if n < 0 then (n + UInt64.size).toNat else n.toNat
  let digits (base : Nat) : Bytes := (Nat.toDigits base unsigned).map byte
  if form = byte 'o' then l.whole (if l.marked then bytes "0" else []) (digits 8)
  else if form = byte 'x' then
    l.whole (if l.marked ∧ n ≠ 0 then bytes "0x" else []) (digits 16)
  else if form = byte 'X' then
    l.whole (if l.marked ∧ n ≠ 0 then bytes "0X" else [])
      ((Nat.toDigits 16 unsigned).map fun c => byte c.toUpper)
  else if form = byte 'u' then l.whole [] (digits 10)
  else l.whole (l.sign (n < 0)) (decimal n.natAbs)

/-- The number of a text and the part of it that is no number. -/
def wholeOf (bs : Bytes) : Int × Bytes :=
  let bs := bs.dropWhile fun b => b = 0x20 || (9 ≤ b && b ≤ 13)
  let (negative, ds) := match bs with
    | 0x2D :: ds => (true, ds)
    | 0x2B :: ds => (false, ds)
    | ds => (false, ds)
  let (n, rest) : Nat × Bytes := match ds with
    | 0x30 :: x :: h :: hs =>
      if (x = byte 'x' ∨ x = byte 'X') ∧ (Hex.value? h).isSome then
        digitsFrom 16 Hex.value? hs.length.succ 0 (h :: hs)
      else digitsFrom 8 octal? ds.length 0 ds
    | 0x30 :: _ => digitsFrom 8 octal? ds.length 0 ds
    | ds =>
      digitsFrom 10 (fun b => if isDigit b then some (b.toNat - 48) else none) ds.length 0 ds
  if rest.length = ds.length then (0, bs) else (if negative then -n else n, rest)

/-- A decimal fraction: its number and the part of the text that is none. -/
def fractionOf (bs : Bytes) : Binary64 × Bytes :=
  let bs := bs.dropWhile fun b => b = 0x20 || (9 ≤ b && b ≤ 13)
  let (negative, ds) := match bs with
    | 0x2D :: ds => (true, ds)
    | 0x2B :: ds => (false, ds)
    | ds => (false, ds)
  let whole := ds.takeWhile isDigit
  let rest := ds.drop whole.length
  let (part, rest) := match rest with
    | 0x2E :: after => (after.takeWhile isDigit, after.dropWhile isDigit)
    | rest => ([], rest)
  if whole = [] ∧ part = [] then (0, bs)
  else
    let value := (number? (whole ++ part)).getD 0
    let (exponent, rest) : Int × Bytes := match rest with
      | e :: after =>
        let (down, digits) := match after with
          | 0x2D :: ds => (true, ds)
          | 0x2B :: ds => (false, ds)
          | ds => (false, ds)
        let run := digits.takeWhile isDigit
        if (e = byte 'e' ∨ e = byte 'E') ∧ run ≠ [] then
          let n := min ((number? run).getD 0) 5000
          (if down then -n else n, digits.drop run.length)
        else (0, rest)
      | [] => (0, [])
    let shift := exponent - part.length
    let x := if shift < 0 then Binary64.ofRatio negative value (Nat.pow 10 (-shift).toNat)
      else Binary64.ofRatio negative (value * Nat.pow 10 shift.toNat) 1
    (x, rest)

/-- The digits of a finite double rounded to one more than `places`, and its decimal exponent. -/
def significant (places : Nat) (x : Binary64) : Bytes × Int :=
  let (m, q) := x.parts
  if m = 0 then (List.replicate (places + 1) 0x30, 0)
  else
    let num := m * Nat.pow 2 q
    let den := Nat.pow 2 1074
    let start : Int := ((Nat.log2 m + q : Int) - 1074) * 30103 / 100000 + 1
    let e := Decimal.leadingExponent num den 4 start
    let (n, d) := Binary64.inUnitsOf 10 (e - places) num den
    let digits := decimal (Binary64.roundDiv n d)
    if digits.length = places + 2 then (digits.take (places + 1), e + 1) else (digits, e)

/-- Digits with a point after the first `whole` of them. -/
def pointed (marked : Bool) (whole : Nat) (digits : Bytes) : Bytes :=
  let part := digits.drop whole
  digits.take whole ++ if part = [] ∧ !marked then [] else byte '.' :: part

/-- Digits without the zeros at their end. -/
def shortened (digits : Bytes) : Bytes := (digits.reverse.dropWhile (· = 0x30)).reverse

/-- The mark of a decimal exponent. -/
def exponentMark (e : Int) : Bytes :=
  let ds := decimal e.natAbs
  bytes (if e < 0 then "e-" else "e+") ++ (if ds.length = 1 then bytes "0" else []) ++ ds

/-- A finite double by the letter of its form. -/
def Layout.fraction (l : Layout) (form : UInt8) (x : Binary64) : Bytes :=
  let places := l.places.getD 6
  let lower := if form < byte 'a' then form + 32 else form
  let body : Bytes :=
    if lower = byte 'f' then
      let digits := decimal (x.inUnits places)
      let digits := List.replicate (places + 1 - digits.length) 0x30 ++ digits
      pointed l.marked (digits.length - places) digits
    else if lower = byte 'e' then
      let (digits, e) := significant places x
      pointed l.marked 1 digits ++ exponentMark e
    else
      let places := max places 1
      let (digits, e) := significant (places - 1) x
      let kept := fun (ds : Bytes) (whole : Nat) =>
        if l.marked then ds else ds.take whole ++ shortened (ds.drop whole)
      if e < -4 ∨ (places : Int) ≤ e then pointed l.marked 1 (kept digits 1) ++ exponentMark e
      else if e < 0 then
        let ds := List.replicate (-e).toNat 0x30 ++ digits
        pointed l.marked 1 (kept ds 1)
      else pointed l.marked (e.toNat + 1) (kept digits (e.toNat + 1))
  let body := if form < byte 'a' then
      body.map fun b => if b = byte 'e' then byte 'E' else b
    else body
  l.field l.zeros (l.sign x.isNegative) body

/-- What was printed so far, with the complaints about arguments, and whether a text ended it
all. -/
structure Printed where
  output : Bytes
  complaints : List Bytes
  stopped : Bool

/-- A complaint about an argument that is no number, or only begins with one. -/
def complaint (d : Dialect) (arg rest : Bytes) : List Bytes :=
  let none := rest.length = arg.length
  if rest = [] then []
  else match d with
    | .shell =>
      [arg ++ bytes (if none then ": expected numeric value" else ": not completely converted")]
    | .program =>
      [Quoted.always arg ++ bytes (if none then ": expected a numeric value"
        else ": value not completely converted")]

/-- The code that a character after an apostrophe stands for. -/
def characterOf? (arg : Bytes) : Option UInt8 :=
  match arg with
  | q :: c :: _ => if q = byte '\'' ∨ q = byte '"' then some c else none
  | _ => none

/-- A number taken from the arguments; without any it is 0. -/
def takeNumber (d : Dialect) (args : List Bytes) : Int × List Bytes × List Bytes :=
  match args with
  | [] => (0, [], [])
  | a :: as =>
    match characterOf? a with
    | some c => ((c.toNat : Int), as, [])
    | none =>
      let (n, rest) := wholeOf a
      (n, as, if a = [] ∧ d = .shell then [] else complaint d a rest)

/-- The layout in front of a letter: signs, width and places, of which the last two may be taken
from the arguments. -/
def layout (d : Dialect) (bs : Bytes) (args : List Bytes) : Layout × Bytes × List Bytes :=
  let signs := bs.takeWhile (bytes "-+ 0#").contains
  let l : Layout := ⟨signs.contains (byte '-'), signs.contains (byte '0'),
    signs.contains (byte '+'), signs.contains (byte ' '), signs.contains (byte '#'), 0, none⟩
  let count (bs : Bytes) (args : List Bytes) : Int × Bytes × List Bytes :=
    if bs.head? = some (byte '*') then
      let (n, args, _) := takeNumber d args
      (n, bs.drop 1, args)
    else ((number? (bs.takeWhile isDigit)).getD 0, bs.dropWhile isDigit, args)
  let (width, bs, args) := count (bs.drop signs.length) args
  let l := { l with width := width.natAbs, left := l.left || width < 0 }
  match bs with
  | 0x2E :: bs =>
    let (places, bs, args) := count bs args
    ({ l with places := some places.toNat }, bs, args)
  | bs => (l, bs, args)

/-- A value by the letter of its form, with complaints, whether it ends everything, and the
arguments that are left; none if there is no such form. -/
def value? (d : Dialect) (l : Layout) (form : UInt8) (args : List Bytes) :
    Option (Printed × List Bytes) :=
  let arg := args.head?.getD []
  if form = byte 's' then some (⟨l.text arg, [], false⟩, args.drop 1)
  else if form = byte 'b' then
    let (shown, stopped) := unescaped d arg.length arg
    some (⟨l.text shown, [], stopped⟩, args.drop 1)
  else if form = byte 'c' then some (⟨l.text (arg.take 1), [], false⟩, args.drop 1)
  else if form = byte 'q' ∧ d = .program then
    some (⟨l.text (Quoted.name arg), [], false⟩, args.drop 1)
  else if (bytes "diouxX").contains form then
    let (n, args, complaints) := takeNumber d args
    some (⟨l.number form n, complaints, false⟩, args)
  else if (bytes "fFeEgG").contains form then
    match characterOf? arg with
    | some c => some (⟨l.fraction form (.ofNat false c.toNat), [], false⟩, args.drop 1)
    | none =>
      let (x, rest) := fractionOf arg
      some (⟨l.fraction form x, if arg = [] then [] else complaint d arg rest, false⟩, args.drop 1)
  else none

/-- What is said of a letter that is no form. -/
def unknownForm : Dialect → String
  | .shell => ": invalid directive"
  | .program => ": invalid conversion specification"

/-- What a format prints once, in at most `n` steps, and the arguments that are left. -/
def once (d : Dialect) : Nat → Bytes → List Bytes → Printed × List Bytes
  | 0, _, args => (⟨[], [], false⟩, args)
  | _, [], args => (⟨[], [], false⟩, args)
  | n + 1, b :: bs, args =>
    let after (p : Printed) (bs : Bytes) (args : List Bytes) : Printed × List Bytes :=
      if p.stopped then (p, args)
      else
        let (q, args) := once d n bs args
        (⟨p.output ++ q.output, p.complaints ++ q.complaints, q.stopped⟩, args)
    if b = byte '\\' then
      if d = .program ∧ bs.head? = some (byte 'c') then (⟨[], [], true⟩, args)
      else
        let (shown, rest) := escape d bs
        after ⟨shown, [], false⟩ rest args
    else if b = byte '%' then
      if bs.head? = some (byte '%') then after ⟨[b], [], false⟩ (bs.drop 1) args
      else
        let (l, rest, args) := layout d bs args
        match rest with
        | [] => (⟨[], [byte '%' :: bytes (unknownForm d)], true⟩, args)
        | form :: rest =>
          match value? d l form args with
          | some (p, args) => after p rest args
          | none => (⟨[], [byte '%' :: form :: bytes (unknownForm d)], true⟩, args)
    else after ⟨[b], [], false⟩ bs args

/-- What a format prints: it is used again while arguments are left, as long as it uses any. -/
def formatted (d : Dialect) (format : Bytes) : Nat → List Bytes → Printed
  | 0, args => (once d format.length format args).1
  | n + 1, args =>
    let (p, left) := once d format.length format args
    if p.stopped ∨ left = [] ∨ left.length = args.length then p
    else
      let q := formatted d format n left
      ⟨p.output ++ q.output, p.complaints ++ q.complaints, q.stopped⟩

end DownloadTriage.Print
