import DownloadTriage.Json.Writer

/-!
# Reading JSON

`read` takes one document from untrusted bytes, blanks around it allowed and nothing else. It checks
the grammar everywhere and the values nowhere: a number out of range or a string that is not text
becomes an `unreadable` leaf. `parse?` asks for every value, at most 127 levels deep, in canonical
form.
-/

namespace DownloadTriage.Json

/-- Space, tab, line feed and carriage return. -/
def isSpace (b : UInt8) : Bool := b == 0x20 || b == 0x09 || b == 0x0A || b == 0x0D

/-- The rest after blanks. -/
def skipBlanks (bs : List UInt8) : List UInt8 := bs.dropWhile isSpace

/-- A decimal digit. -/
def isDigit (b : UInt8) : Bool := 0x30 ≤ b && b ≤ 0x39

/-! ## Numbers -/

/-- A number as written: its sign, the digits before and after the point, and the exponent. A point
without digits is not written. -/
structure Numeral where
  negative : Bool
  whole : List UInt8
  fraction : List UInt8
  exponent : Option Int

/-- The value of digits. -/
def digitsValue (ds : List UInt8) : Nat := ds.foldl (fun n d => n * 10 + (d.toNat - 0x30)) 0

/-- The digits before the point: a zero, or digits that start with none. -/
def readWhole (bs : List UInt8) : Option (List UInt8 × List UInt8) :=
  match bs.takeWhile isDigit with
  | [] => none
  | d :: ds => if d = 0x30 && !ds.isEmpty then none else some (d :: ds, bs.dropWhile isDigit)

/-- The digits after a point, if there is a point. -/
def readFraction : List UInt8 → Option (List UInt8 × List UInt8)
  | b :: bs =>
    if b = 0x2E then
      match bs.takeWhile isDigit with
      | [] => none
      | ds => some (ds, bs.dropWhile isDigit)
    else some ([], b :: bs)
  | [] => some ([], [])

/-- The exponent, if there is one. -/
def readExponent : List UInt8 → Option (Option Int × List UInt8)
  | b :: bs =>
    if b = 0x65 || b = 0x45 then
      let (negative, bs) := match bs with
        | s :: rest =>
          if s = 0x2D then (true, rest) else if s = 0x2B then (false, rest) else (false, bs)
        | [] => (false, [])
      match bs.takeWhile isDigit with
      | [] => none
      | ds =>
        let n : Int := digitsValue ds
        some (some (if negative then -n else n), bs.dropWhile isDigit)
    else some (none, b :: bs)
  | [] => some (none, [])

/-- A number and what follows it. -/
def readNumeral (bs : List UInt8) : Option (Numeral × List UInt8) := do
  let (negative, bs) := match bs with
    | b :: rest => if b = 0x2D then (true, rest) else (false, bs)
    | [] => (false, [])
  let (whole, bs) ← readWhole bs
  let (fraction, bs) ← readFraction bs
  let (exponent, bs) ← readExponent bs
  some (⟨negative, whole, fraction, exponent⟩, bs)

/-- The largest integer that a literal's digits are gathered in. -/
def maxSignificand : Nat := UInt64.size - 1

/-- The leading digits as one integer of 64 bits, and the digits left over. -/
def gather (n : Nat) : List UInt8 → Nat × List UInt8
  | [] => (n, [])
  | d :: ds =>
    let next := n * 10 + (d.toNat - 0x30)
    if next ≤ maxSignificand then gather next ds else (n, d :: ds)

/-- `x * 10 ^ e`, the power taken in steps that a double holds, each step rounded; none when out of
range. -/
def scale : Nat → Binary64 → Int → Option Binary64
  | 0, x, _ => some x
  | fuel + 1, x, e =>
    if e.natAbs ≤ 308 then
      if 0 ≤ e then
        let y := x.mul (.pow10 e.natAbs)
        if y.isFinite then some y else none
      else some (x.div (.pow10 e.natAbs))
    else if x.magnitude = 0 then some x
    else if 0 ≤ e then none
    else scale fuel (x.div (.pow10 308)) (e + 308)

/-- The number that a literal stands for: an integer when it is written as one and fits 64 bits,
otherwise the double of its leading digits, scaled. -/
def Numeral.number? (n : Numeral) : Option Number :=
  let (m, rest) := gather 0 n.whole
  if n.fraction.isEmpty && n.exponent.isNone && rest.isEmpty then
    if !n.negative then some (.integer m)
    else if 0 < m && Int64.minValue.toInt ≤ -(m : Int) then some (.integer (-(m : Int)))
    else some (.float (Binary64.ofNat true m))
  else
    let (s, lost) := gather m n.fraction
    let e : Int := (rest.length : Int) - ((n.fraction.length : Int) - lost.length)
      + n.exponent.getD 0
    (scale 4 (Binary64.ofNat false s) e).map fun x => .float (if n.negative then x.negate else x)

/-! ## Strings -/

/-- Where the reader stands in a string: between characters, after a backslash, or before the last
`n + 1` hexadecimal digits of an escape. -/
inductive StringState where
  | plain
  | escaped
  | hex (n : Nat)

/-- The letters that may follow a backslash, `u` apart. -/
def isEscapeLetter (b : UInt8) : Bool :=
  b == quote || b == backslash || b == slash || b == 0x62 || b == 0x66 || b == 0x6E || b == 0x72 ||
    b == 0x74

/-- The bytes up to the closing quote, escapes left as they are, and what follows it. -/
def readStringBody : StringState → List UInt8 → Option (List UInt8 × List UInt8)
  | _, [] => none
  | .plain, b :: bs =>
    if b = quote then some ([], bs)
    else if b = backslash then
      (readStringBody .escaped bs).map fun (s, rest) => (b :: s, rest)
    else if b < 0x20 then none
    else (readStringBody .plain bs).map fun (s, rest) => (b :: s, rest)
  | .escaped, b :: bs =>
    if b = letterU then (readStringBody (.hex 3) bs).map fun (s, rest) => (b :: s, rest)
    else if isEscapeLetter b then
      (readStringBody .plain bs).map fun (s, rest) => (b :: s, rest)
    else none
  | .hex n, b :: bs =>
    if (Hex.value? b).isSome then
      let next := match n with
        | 0 => StringState.plain
        | n + 1 => .hex n
      (readStringBody next bs).map fun (s, rest) => (b :: s, rest)
    else none

/-- The byte that an escape letter stands for. -/
def unescapeLetter (b : UInt8) : UInt8 :=
  if b = 0x62 then 0x08
  else if b = 0x66 then 0x0C
  else if b = 0x6E then 0x0A
  else if b = 0x72 then 0x0D
  else if b = 0x74 then 0x09
  else b

/-- The value of four hexadecimal digits. -/
def hex4 (a b c d : UInt8) : Nat :=
  let v (x : UInt8) := (Hex.value? x).getD 0
  ((v a * 16 + v b) * 16 + v c) * 16 + v d

/-- The bytes of the character with that number. -/
def charBytes (n : Nat) : List UInt8 := Utf8.bytes (String.singleton (Char.ofNat n))

/-- The bytes that a string's body stands for; none when a surrogate stands alone. -/
def unescape : List UInt8 → Option (List UInt8)
  | [] => some []
  | b :: bs =>
    if b = backslash then
      match bs with
      | [] => none
      | e :: bs =>
        if e = letterU then
          match bs with
          | a :: b :: c :: d :: bs =>
            let n := hex4 a b c d
            if 0xDC00 ≤ n && n ≤ 0xDFFF then none
            else if 0xD800 ≤ n && n ≤ 0xDBFF then
              match bs with
              | x :: y :: a :: b :: c :: d :: bs =>
                let m := hex4 a b c d
                if x = backslash && y = letterU && 0xDC00 ≤ m && m ≤ 0xDFFF then
                  (unescape bs).map
                    (charBytes ((n - 0xD800) * 0x400 + (m - 0xDC00) + 0x10000) ++ ·)
                else none
              | _ => none
            else (unescape bs).map (charBytes n ++ ·)
          | _ => none
        else (unescape bs).map (unescapeLetter e :: ·)
    else (unescape bs).map (b :: ·)
termination_by bs => bs.length
decreasing_by all_goals (simp_all only [List.length_cons]; omega)

/-- The text that a string's body stands for. -/
def textOfBody (body : List UInt8) : Option String := (unescape body).bind Utf8.decode?

/-! ## Values -/

/-- The rest after a word. -/
def expect : List UInt8 → List UInt8 → Option (List UInt8)
  | [], bs => some bs
  | _ :: _, [] => none
  | w :: ws, b :: bs => if w = b then expect ws bs else none

/-- An object of members whose names are texts; otherwise it cannot be used. -/
def ofMembers (ms : List (Option String × Json)) : Json :=
  match ms.mapM fun (n, v) => n.map (·, v) with
  | some ms => obj ms
  | none => unreadable

mutual

/-- A value and what follows it. -/
def readValue : Nat → List UInt8 → Option (Json × List UInt8)
  | 0, _ => none
  | _ + 1, [] => none
  | fuel + 1, b :: bs =>
    if b = quote then
      (readStringBody .plain bs).map fun (body, rest) =>
        (((textOfBody body).map str).getD unreadable, rest)
    else if b = openBracket then
      match skipBlanks bs with
      | [] => none
      | c :: rest =>
        if c = closeBracket then some (arr [], rest)
        else (readItems fuel (c :: rest)).map fun (vs, rest) => (arr vs, rest)
    else if b = openBrace then
      match skipBlanks bs with
      | [] => none
      | c :: rest =>
        if c = closeBrace then some (obj [], rest)
        else (readMembers fuel (c :: rest)).map fun (ms, rest) => (ofMembers ms, rest)
    else if b = 0x6E then (expect [0x75, 0x6C, 0x6C] bs).map (null, ·)
    else if b = 0x74 then (expect [0x72, 0x75, 0x65] bs).map (bool true, ·)
    else if b = 0x66 then (expect [0x61, 0x6C, 0x73, 0x65] bs).map (bool false, ·)
    else (readNumeral (b :: bs)).map fun (n, rest) => ((n.number?.map num).getD unreadable, rest)

/-- The items of a list, the first of which starts here, and what follows the list. -/
def readItems : Nat → List UInt8 → Option (List Json × List UInt8)
  | 0, _ => none
  | fuel + 1, bs => do
    let (v, rest) ← readValue fuel bs
    match skipBlanks rest with
    | [] => none
    | c :: rest =>
      if c = closeBracket then some ([v], rest)
      else if c = comma then
        let (vs, rest) ← readItems fuel (skipBlanks rest)
        some (v :: vs, rest)
      else none

/-- The members of an object, the first of which starts here, and what follows the object. -/
def readMembers : Nat → List UInt8 → Option (List (Option String × Json) × List UInt8)
  | 0, _ => none
  | _ + 1, [] => none
  | fuel + 1, b :: bs => do
    if b ≠ quote then none
    let (body, rest) ← readStringBody .plain bs
    let name := textOfBody body
    match skipBlanks rest with
    | [] => none
    | c :: rest =>
      if c ≠ colon then none
      let (v, rest) ← readValue fuel (skipBlanks rest)
      match skipBlanks rest with
      | [] => none
      | c :: rest =>
        if c = closeBrace then some ([(name, v)], rest)
        else if c = comma then
          let (ms, rest) ← readMembers fuel (skipBlanks rest)
          some ((name, v) :: ms, rest)
        else none

end

/-- The one document that the bytes hold. -/
def read (bs : List UInt8) : Option Json :=
  match readValue (2 * bs.length + 2) (skipBlanks bs) with
  | some (v, rest) => if (skipBlanks rest).isEmpty then some v else none
  | none => none

/-- The deepest nesting of a document whose every value is asked for. -/
def maxDepth : Nat := 127

/-- The value of the one document that the bytes hold, in canonical form. -/
def parse? (bs : List UInt8) : Option Json :=
  (read bs).bind fun v =>
    if v.isReadable && v.depth ≤ maxDepth then some v.canonical else none

end DownloadTriage.Json
