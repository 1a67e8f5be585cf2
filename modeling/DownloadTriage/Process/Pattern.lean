import DownloadTriage.Process.Script

/-!
# Patterns of names

A pattern stands for many names: `*` for any bytes, `?` for one, and brackets for one of some.
A quoted byte stands for itself.

* `matchesText_literal`: a pattern without such signs matches its own text alone.
-/

namespace DownloadTriage.Pattern

open Script

/-- A step of a pattern. -/
inductive Glyph where
  | literal (b : UInt8)
  | one
  | many
  | among (negated : Bool) (ranges : List (UInt8 × UInt8))
  deriving DecidableEq, Repr

/-- The bytes of the named classes. -/
def classes : List (String × List (UInt8 × UInt8)) :=
  let r (a b : Char) : UInt8 × UInt8 := (byte a, byte b)
  [("alpha", [r 'a' 'z', r 'A' 'Z']), ("digit", [r '0' '9']),
    ("alnum", [r 'a' 'z', r 'A' 'Z', r '0' '9']), ("upper", [r 'A' 'Z']), ("lower", [r 'a' 'z']),
    ("space", [(9, 13), r ' ' ' ']), ("blank", [(9, 9), r ' ' ' ']),
    ("punct", [r '!' '/', r ':' '@', r '[' '`', r '\x7b' '~']),
    ("xdigit", [r '0' '9', r 'a' 'f', r 'A' 'F']), ("cntrl", [(0, 31), (127, 127)]),
    ("print", [r ' ' '~']), ("graph", [r '!' '~'])]

/-- A byte of a pattern and whether it is quoted. -/
abbrev Marked := UInt8 × Bool

/-- The class whose name stands after an opening bracket. -/
def class? (bs : List Marked) : Option (String × List (UInt8 × UInt8)) :=
  classes.find? fun c => (bytes (":" ++ c.1 ++ ":]")).isPrefixOf (bs.map (·.1))

/-- One member between brackets and what comes after it. -/
def member : List Marked → List (UInt8 × UInt8) × List Marked
  | [] => ([], [])
  | (b, quoted) :: rest =>
    match if b = byte '[' ∧ !quoted then class? rest else none with
    | some c => (c.2, rest.drop (c.1.length + 3))
    | none =>
      match rest with
      | (d, false) :: (e, q) :: more =>
        if d = byte '-' ∧ ¬(e = byte ']' ∧ !q) then ([(b, e)], more) else ([(b, b)], rest)
      | rest => ([(b, b)], rest)

/-- The members between brackets, at most `n`, and what comes after the bracket that closes them. -/
def members : Nat → List Marked → Option (List (UInt8 × UInt8) × List Marked)
  | 0, _ => none
  | n + 1, bs =>
    if bs.head? = some (byte ']', false) then some ([], bs.drop 1)
    else if bs = [] then none
    else
      let (rs, after) := member bs
      (members n after).map fun (others, after) => (rs ++ others, after)

/-- What stands between brackets, after the first of them. A bracket that comes first closes
nothing. -/
def bracket (bs : List Marked) : Option (Glyph × List Marked) :=
  let negated := bs.head? = some (byte '!', false) ∨ bs.head? = some (byte '^', false)
  let bs := if negated then bs.drop 1 else bs
  let (rs, after) := member bs
  (members bs.length after).map fun (others, after) => (.among negated (rs ++ others), after)

/-- The steps of a pattern, at most `n`. -/
def steps : Nat → List Marked → List Glyph
  | 0, _ => []
  | _, [] => []
  | n + 1, (b, quoted) :: rest =>
    if quoted then .literal b :: steps n rest
    else if b = byte '*' then .many :: steps n rest
    else if b = byte '?' then .one :: steps n rest
    else
      match if b = byte '[' then bracket rest else none with
      | some (g, after) => g :: steps n after
      | none => .literal b :: steps n rest

/-- The steps of a pattern. -/
def ofMarked (bs : List Marked) : List Glyph := steps bs.length bs

/-- Whether a step stands for a byte. -/
def Glyph.takes (g : Glyph) (b : UInt8) : Bool :=
  match g with
  | .literal c => b == c
  | .one => true
  | .many => false
  | .among negated rs => rs.any (fun r => r.1 ≤ b && b ≤ r.2) != negated

/-- Whether a pattern stands for a text. -/
def matchesText : List Glyph → Bytes → Bool
  | [], bs => bs.isEmpty
  | .many :: gs, [] => matchesText gs []
  | .many :: gs, b :: bs => matchesText gs (b :: bs) || matchesText (.many :: gs) bs
  | g :: gs, b :: bs => g.takes b && matchesText gs bs
  | _ :: _, [] => false
termination_by gs bs => gs.length + bs.length

theorem matchesText_literal (bs cs : Bytes) :
    matchesText (bs.map Glyph.literal) cs = (bs == cs) := by
  induction bs generalizing cs with
  | nil => cases cs <;> simp [matchesText]
  | cons b bs ih =>
    cases cs with
    | nil => simp [matchesText]
    | cons c cs =>
      have swap : (c == b) = (b == c) := BEq.comm
      simp [matchesText, Glyph.takes, ih, swap]

/-- Whether a pattern has a step that stands for more than one text. -/
def isActive (gs : List Glyph) : Bool :=
  gs.any fun g => match g with
    | .literal _ => false
    | _ => true

/-- A text without the part at its start, or at its end, that a pattern stands for. -/
def cut (atEnd longest : Bool) (gs : List Glyph) (bs : Bytes) : Bytes :=
  let sizes := List.range (bs.length + 1)
  let sizes := if longest then sizes.reverse else sizes
  match sizes.find? fun n =>
    matchesText gs (if atEnd then bs.drop (bs.length - n) else bs.take n) with
  | some n => if atEnd then bs.take (bs.length - n) else bs.drop n
  | none => bs

end DownloadTriage.Pattern
