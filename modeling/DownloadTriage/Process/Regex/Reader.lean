import DownloadTriage.Process.Regex

/-!
# Reading regular expressions

The two ways to write a regular expression: in the basic one `\(`, `\)`, `\{`, `\}`, `\|`, `\+` and
`\?` have a meaning with a backslash, in the extended one without.

* `ofLiteral`: a text without signs, as an expression for itself.
-/

namespace DownloadTriage.Regex

open Script

/-- What is wrong with the text of an expression. -/
inductive Defect where
  | nothing
  | openBracket
  | openGroup
  | closedGroup
  | openInterval
  | badInterval
  | badReference
  | lonelyBackslash
  | badRange
  | badClass
  deriving DecidableEq, Repr

/-- The words for a defect. -/
def Defect.message : Defect → String
  | nothing => "Invalid regular expression"
  | openBracket => "Unmatched [, [^, [:, [., or [="
  | openGroup => "Unmatched ( or \\("
  | closedGroup => "Unmatched ) or \\)"
  | openInterval => "Unmatched \\\x7b"
  | badInterval => "Invalid content of \\\x7b\\\x7d"
  | badReference => "Invalid back reference"
  | lonelyBackslash => "Trailing backslash"
  | badRange => "Invalid range end"
  | badClass => "Invalid character class name"

/-- A sign of an expression. -/
inductive Sign where
  | one (r : Regex)
  | times (least : Nat) (most : Option Nat)
  | opening
  | closing
  | bar
  deriving DecidableEq, Repr

/-- A number and what comes after it. -/
def numeral (bs : Bytes) : Option Nat × Bytes :=
  (number? (bs.takeWhile isDigit), bs.dropWhile isDigit)

/-- How often the part before may stand, and what comes after the brace that closes. -/
def interval? (isExtended : Bool) (bs : Bytes) : Except Defect (Sign × Bytes) :=
  let close : Bytes := if isExtended then [0x7D] else bytes "\\\x7d"
  let (least, rest) := numeral bs
  let (most, rest) : Option Nat × Bytes :=
    if rest.head? = some (byte ',') then numeral (rest.drop 1) else (least, rest)
  let isOpen := (bs.dropWhile isDigit).head? = some (byte ',')
  if !close.isPrefixOf rest then
    .error (if rest.isEmpty then .openInterval else .badInterval)
  else if (least.isNone ∧ !isOpen) ∨ most.any (· < least.getD 0) then .error .badInterval
  else .ok (.times (least.getD 0) most, rest.drop close.length)

/-- Whether a text between brackets, of at most `n` bytes, names a class that there is not. -/
def namesNoClass : Nat → Bytes → Bool
  | 0, _ => false
  | _, [] => false
  | n + 1, b :: bs =>
    if (bytes "[:").isPrefixOf (b :: bs) then
      let name := (bs.drop 1).takeWhile fun c => byte 'a' ≤ c && c ≤ byte 'z'
      if (bytes ":]").isPrefixOf (bs.drop (1 + name.length)) then
        !(Pattern.classes.any fun c => bytes c.1 = name) ||
          namesNoClass n (bs.drop (3 + name.length))
      else namesNoClass n bs
    else namesNoClass n bs

/-- Some of several bytes, after the bracket that opens. -/
def bracket? (bs : Bytes) : Except Defect (Regex × Bytes) :=
  if bs = [] then .error .nothing
  else
  let negated := bs.head? = some (byte '^')
  let marked : List Pattern.Marked := (if negated then bs.drop 1 else bs).map fun b => (b, false)
  let (first, rest) := Pattern.member marked
  match Pattern.members rest.length rest with
  | none => .error .openBracket
  | some (others, after) =>
    let text := bs.take (bs.length - after.length)
    if namesNoClass text.length text then .error .badClass
    else if (first ++ others).any fun r => r.2 < r.1 then .error .badRange
    else .ok (.among negated (first ++ others), after.map (·.1))

/-- What a byte after a backslash stands for in both ways of writing. -/
def escaped (b : UInt8) : Regex :=
  let blank : List (UInt8 × UInt8) := [(9, 13), (0x20, 0x20)]
  match Char.ofNat b.toNat with
  | 'w' => .among false wordRanges
  | 'W' => .among true wordRanges
  | 's' => .among false blank
  | 'S' => .among true blank
  | 'b' => .edge .wordEdge
  | 'B' => .edge .noEdge
  | '<' => .edge .wordStart
  | '>' => .edge .wordEnd
  | '`' => .edge .textStart
  | '\'' => .edge .textEnd
  | _ => if byte '1' ≤ b ∧ b ≤ byte '9' then .again (b - byte '0').toNat else literal b

/-- Where a sign stands: at a start, behind a mark for the start of a line, or elsewhere. -/
inductive Standing where
  | start
  | afterStart
  | inside
  deriving DecidableEq, Repr

/-- Whether the rest of a basic expression begins with the end of a part. -/
def endsPart (bs : Bytes) : Bool :=
  bs.isEmpty || (bytes "\\)").isPrefixOf bs || (bytes "\\|").isPrefixOf bs

/-- The sign that a text begins with, and what comes after it. -/
def sign (isExtended : Bool) (standing : Standing) :
    Bytes → Except Defect (Option Sign × Bytes)
  | [] => .ok (none, [])
  | 0x5C :: [] => .error .lonelyBackslash
  | 0x5C :: b :: bs =>
    if isExtended then .ok (some (.one (escaped b)), bs)
    else match Char.ofNat b.toNat with
      | '(' => .ok (some .opening, bs)
      | ')' => .ok (some .closing, bs)
      | '|' => .ok (some .bar, bs)
      | '+' => .ok (some (if standing = .inside then .times 1 none else .one (literal b)), bs)
      | '?' => .ok (some (if standing = .inside then .times 0 (some 1) else .one (literal b)), bs)
      | '\x7b' => (interval? false bs).map fun (s, bs) => (some s, bs)
      | _ => .ok (some (.one (escaped b)), bs)
  | b :: bs =>
    match isExtended, Char.ofNat b.toNat with
    | _, '.' => .ok (some (.one any), bs)
    | _, '[' => (bracket? bs).map fun (r, bs) => (some (.one r), bs)
    | true, '*' => .ok (some (.times 0 none), bs)
    | false, '*' =>
      .ok (some (if standing = .inside then .times 0 none else .one (literal b)), bs)
    | true, '^' => .ok (some (.one (.edge .lineStart)), bs)
    | true, '$' => .ok (some (.one (.edge .lineEnd)), bs)
    | false, '^' =>
      .ok (some (.one (if standing = .start then .edge .lineStart else literal b)), bs)
    | false, '$' => .ok (some (.one (if endsPart bs then .edge .lineEnd else literal b)), bs)
    | true, '(' => .ok (some .opening, bs)
    | true, ')' => .ok (some .closing, bs)
    | true, '|' => .ok (some .bar, bs)
    | true, '+' => .ok (some (.times 1 none), bs)
    | true, '?' => .ok (some (.times 0 (some 1)), bs)
    | true, '\x7b' =>
      match interval? true bs with
      | .ok (s, bs) => .ok (some s, bs)
      | .error _ => .ok (some (.one (literal b)), bs)
    | _, _ => .ok (some (.one (literal b)), bs)

/-- The signs of a text, at most `n`, in `depth` groups. If it is lenient, the end of a group that
was not begun stands for itself. -/
def signs (isExtended isLenient : Bool) :
    Nat → (depth : Nat) → Standing → Bytes → Except Defect (List Sign)
  | 0, _, _, _ => .ok []
  | n + 1, depth, standing, bs => do
    match ← sign isExtended standing bs with
    | (none, _) => return []
    | (some s, rest) =>
      let s := if isLenient ∧ s = .closing ∧ depth = 0 then .one (literal (byte ')')) else s
      let after : Standing := match s with
        | .opening => .start
        | .bar => .start
        | .one (.edge .lineStart) => if standing = .start then .afterStart else .inside
        | _ => .inside
      let depth := match s with
        | .opening => depth + 1
        | .closing => depth - 1
        | _ => depth
      return s :: (← signs isExtended isLenient n depth after rest)

/-- An expression and how often it may stand. -/
def repeats (r : Regex) : List Sign → Regex × List Sign
  | .times least most :: ss => repeats (.times r least most) ss
  | ss => (r, ss)

mutual

/-- Alternatives, with the number of groups before and after them. -/
def alternatives : Nat → Nat → List Sign → Except Defect (Regex × Nat × List Sign)
  | 0, count, ss => .ok (.empty, count, ss)
  | n + 1, count, ss => do
    let (r, count, ss) ← branch n count ss
    match ss with
    | .bar :: ss =>
      let (s, count, ss) ← alternatives n count ss
      return (.alt r s, count, ss)
    | ss => return (r, count, ss)

/-- Parts in a row. -/
def branch : Nat → Nat → List Sign → Except Defect (Regex × Nat × List Sign)
  | 0, count, ss => .ok (.empty, count, ss)
  | _, count, [] => .ok (.empty, count, [])
  | _, count, .bar :: ss => .ok (.empty, count, .bar :: ss)
  | _, count, .closing :: ss => .ok (.empty, count, .closing :: ss)
  | n + 1, count, ss => do
    let (r, count, ss) ← part n count ss
    let (r, ss) := repeats r ss
    let (s, count, ss) ← branch n count ss
    return (.seq r s, count, ss)

/-- One part. -/
def part : Nat → Nat → List Sign → Except Defect (Regex × Nat × List Sign)
  | 0, count, ss => .ok (.empty, count, ss)
  | _, count, .one (.again k) :: ss =>
    if k ≤ count then .ok (.again k, count, ss) else .error .badReference
  | _, count, .one r :: ss => .ok (r, count, ss)
  | n + 1, count, .opening :: ss => do
    let (r, after, ss) ← alternatives n (count + 1) ss
    match ss with
    | .closing :: ss => return (.group (count + 1) r, after, ss)
    | _ => .error .openGroup
  | _, count, ss => .ok (.empty, count, ss)

end

/-- The expression that a text writes down, and the number of its groups. -/
def ofBytes? (isExtended isLenient : Bool) (bs : Bytes) : Except Defect (Regex × Nat) := do
  let ss ← signs isExtended isLenient (bs.length + 1) 0 .start bs
  let (r, count, rest) ← alternatives (3 * ss.length + 3) 0 ss
  if rest.isEmpty then return (r, count) else .error .closedGroup

/-- A text as an expression for itself. -/
def ofLiteral (bs : Bytes) : Regex := bs.foldr (fun b r => .seq (literal b) r) .empty

end DownloadTriage.Regex
