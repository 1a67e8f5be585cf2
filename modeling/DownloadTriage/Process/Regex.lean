import DownloadTriage.Process.Pattern

/-!
# Regular expressions

A regular expression stands for texts. Where it holds in a line in several ways, the leftmost
counts, and of those at one place the longest.
-/

namespace DownloadTriage

open Script

/-- A condition on a place between two bytes. -/
inductive Edge where
  | lineStart
  | lineEnd
  | textStart
  | textEnd
  | wordStart
  | wordEnd
  | wordEdge
  | noEdge
  deriving DecidableEq, Repr

/-- A regular expression over bytes. -/
inductive Regex where
  | empty
  | among (negated : Bool) (ranges : List (UInt8 × UInt8))
  | edge (e : Edge)
  | seq (r s : Regex)
  | alt (r s : Regex)
  | times (r : Regex) (least : Nat) (most : Option Nat)
  | group (n : Nat) (r : Regex)
  | again (n : Nat)
  deriving DecidableEq, Repr

namespace Regex

/-- The expression for one byte. -/
def literal (b : UInt8) : Regex := .among false [(b, b)]

/-- The expression for any byte. -/
def any : Regex := .among true []

/-- The bytes of words. -/
def wordRanges : List (UInt8 × UInt8) :=
  [(byte 'a', byte 'z'), (byte 'A', byte 'Z'), (byte '0', byte '9'), (byte '_', byte '_')]

/-- Whether a byte is in one of some ranges. -/
def within (ranges : List (UInt8 × UInt8)) (b : UInt8) : Bool :=
  ranges.any fun r => r.1 ≤ b && b ≤ r.2

/-- How an expression is looked for: whether case counts for nothing, and whether lines begin and
end inside the text. -/
structure Mode where
  foldsCase : Bool
  isMultiline : Bool
  deriving DecidableEq, Repr

/-- The other case of a letter. -/
def otherCase (b : UInt8) : UInt8 :=
  if byte 'a' ≤ b ∧ b ≤ byte 'z' then b - 0x20
  else if byte 'A' ≤ b ∧ b ≤ byte 'Z' then b + 0x20
  else b

/-- Whether two bytes count as one. -/
def Mode.same (m : Mode) (a b : UInt8) : Bool := a == b || (m.foldsCase && otherCase a == b)

/-- Whether a byte stands in a text at a place and belongs to a word. -/
def isWordAt (text : Array UInt8) (i : Nat) : Bool := text[i]?.any (within wordRanges)

/-- Whether a word byte stands before a place. -/
def isWordBefore (text : Array UInt8) (i : Nat) : Bool := 0 < i && isWordAt text (i - 1)

/-- Whether a condition holds at a place. -/
def Edge.holds (m : Mode) (text : Array UInt8) (i : Nat) : Edge → Bool
  | .textStart => i == 0
  | .textEnd => i == text.size
  | .lineStart => i == 0 || (m.isMultiline && text[i - 1]? == some 0x0A)
  | .lineEnd => i == text.size || (m.isMultiline && text[i]? == some 0x0A)
  | .wordStart => !isWordBefore text i && isWordAt text i
  | .wordEnd => isWordBefore text i && !isWordAt text i
  | .wordEdge => isWordBefore text i != isWordAt text i
  | .noEdge => isWordBefore text i == isWordAt text i

/-- A way in which an expression holds: where it ends, and from where to where its groups go. -/
structure Found where
  stop : Nat
  groups : List (Nat × Nat × Nat)
  deriving DecidableEq, Repr

/-- The ways after further rounds, at most `n`, the longest rounds first. A round that takes nothing
counts only where one is missing. -/
def rounds (step : Found → List Found) : Nat → Nat → Option Nat → List Found → List Found
  | 0, least, _, front => if least = 0 then front else []
  | n + 1, least, most, front =>
    let next := if most = some 0 then [] else
      (front.flatMap fun f => (step f).filter fun g => f.stop < g.stop || 0 < least).eraseDups
    (if next.isEmpty then [] else rounds step n (least - 1) (most.map (· - 1)) next) ++
      if least = 0 then front else []

/-- The ways in which an expression holds after what was found before. -/
def ways (m : Mode) (text : Array UInt8) : Regex → Found → List Found
  | .empty, f => [f]
  | .among negated ranges, f =>
    match text[f.stop]? with
    | some b =>
      if (within ranges b || (m.foldsCase && within ranges (otherCase b))) != negated then
        [{ f with stop := f.stop + 1 }]
      else []
    | none => []
  | .edge e, f => if Edge.holds m text f.stop e then [f] else []
  | .seq r s, f => ((ways m text r f).flatMap (ways m text s)).eraseDups
  | .alt r s, f => (ways m text r f ++ ways m text s f).eraseDups
  | .times r least most, f =>
    rounds (ways m text r) (text.size - f.stop + least + 1) least most [f]
  | .group n r, f => (ways m text r f).map fun g =>
    { g with groups := (n, f.stop, g.stop) :: g.groups.filter (·.1 ≠ n) }
  | .again n, f =>
    match f.groups.lookup n with
    | none => []
    | some (a, b) =>
      if f.stop + (b - a) ≤ text.size ∧
          (List.range (b - a)).all fun i => m.same (text.getD (a + i) 0) (text.getD (f.stop + i) 0)
      then [{ f with stop := f.stop + (b - a) }]
      else []

/-- The longest of some ways, of equals the first. -/
def longest? (fs : List Found) : Option Found :=
  fs.foldl (fun best f =>
    match best with
    | some g => if g.stop < f.stop then some f else best
    | none => some f) none

/-- The leftmost place from `i` on where an expression holds in a way that is welcome, and the
longest such way. -/
def search? (m : Mode) (r : Regex) (text : Array UInt8) (i : Nat)
    (isWelcome : Nat → Nat → Bool) : Option (Nat × Found) :=
  (List.range' i (text.size + 1 - i)).findSome? fun a =>
    (longest? ((ways m text r ⟨a, []⟩).filter fun f => isWelcome a f.stop)).map fun f => (a, f)

/-- The text of a group, or of the whole for number zero. -/
def Found.part (f : Found) (start : Nat) (text : Array UInt8) (n : Nat) : Bytes :=
  match if n = 0 then some (start, f.stop) else f.groups.lookup n with
  | some (a, b) => (text.extract a b).toList
  | none => []

end Regex

end DownloadTriage
