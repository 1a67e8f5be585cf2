import DownloadTriage.Process.Regex.Reader
import DownloadTriage.Process.Tool.Entries

/-!
# A tool that searches

`grep` prints the lines of files in which an expression holds.
-/

namespace DownloadTriage.Tool

open Script

/-- What is searched for, and which ways of finding it count. -/
structure Search where
  expressions : List Regex
  mode : Regex.Mode
  wholeWords : Bool
  wholeLines : Bool

/-- Whether what was found from one place to another counts. -/
def Search.isWelcome (s : Search) (line : Array UInt8) (a b : Nat) : Bool :=
  (!s.wholeLines || (a == 0 && b == line.size)) &&
    (!s.wholeWords || s.wholeLines ||
      (!Regex.isWordBefore line a && !(Regex.isWordAt line b)))

/-- The leftmost longest place in a line, from `i` on, where one of the expressions holds. -/
def Search.find? (s : Search) (line : Array UInt8) (i : Nat) : Option (Nat × Nat) :=
  let found := s.expressions.filterMap fun r =>
    (r.search? s.mode line i (s.isWelcome line)).map fun f => (f.1, f.2.stop)
  found.foldl (fun best f =>
    match best with
    | some g => if f.1 < g.1 ∨ (f.1 = g.1 ∧ g.2 < f.2) then some f else best
    | none => some f) none

/-- The parts of a line where one of the expressions holds and takes something, at most `n`. -/
def Search.parts (s : Search) (line : Array UInt8) : Nat → Nat → List (Nat × Bytes)
  | 0, _ => []
  | n + 1, i =>
    match s.find? line i with
    | none => []
    | some (a, b) =>
      if a < b then (a, (line.extract a b).toList) :: s.parts line n b
      else s.parts line n (b + 1)

/-- A text cut at line ends. -/
def unlined (bs : Bytes) : List Bytes := if bs = [] then [[]] else (lines bs).map chomp

/-- The switches of a search. -/
def searchSwitches : List Switch :=
  [flag 'E' "extended-regexp", flag 'F' "fixed-strings", flag 'G' "basic-regexp",
    flag 'P' "perl-regexp", setting 'e' "regexp", setting 'f' "file", flag 'i' "ignore-case",
    flag 'y' "", flag 'v' "invert-match", flag 'w' "word-regexp", flag 'x' "line-regexp",
    flag 'c' "count", flag 'l' "files-with-matches", flag 'L' "files-without-match",
    flag 'q' "quiet", flag 'q' "silent", flag 's' "no-messages", flag 'n' "line-number",
    flag 'b' "byte-offset", flag 'h' "no-filename", flag 'H' "with-filename",
    flag 'o' "only-matching", setting 'm' "max-count", setting 'A' "after-context",
    setting 'B' "before-context", setting 'C' "context", flag 'a' "text", flag 'r' "recursive",
    flag 'R' "dereference-recursive", flag 'z' "null-data"]

/-- A complaint about how a search is called. -/
def misusedSearch (c : Call) (text : Bytes) : StateM Work Unit := do
  if text ≠ [] then say c text
  let usage := bytes "Usage: " ++ c.name ++ bytes " [OPTION]... PATTERNS [FILE]...\nTry '" ++
    c.name ++ bytes " --help' for more information.\n"
  modify fun w => { w with pieces := (.errors, usage) :: w.pieces, status := 2 }

/-- A line of a file: its number, where it begins, its text, and whether it is selected. -/
structure Row where
  number : Nat
  offset : Nat
  text : Bytes
  isSelected : Bool

/-- The lines of a text, up to the last of `most` that are selected and the `after` behind it. -/
def rows (isSelected : Bytes → Bool) (most : Option Nat) (after : Nat) (text : Bytes) : List Row :=
  let step (found : List Row × Nat × Nat × Nat) (line : Bytes) : List Row × Nat × Nat × Nat :=
    let (rs, count, offset, behind) := found
    if most.any (· ≤ count) ∧ after ≤ behind then found
    else
      let full := most.any (· ≤ count)
      let selected := !full && isSelected (chomp line)
      (⟨rs.length + 1, offset, chomp line, selected⟩ :: rs, count + selected.toNat,
        offset + line.length, behind + full.toNat)
  ((lines text).foldl step ([], 0, 0, 0)).1.reverse

/-- Whether the line of a number is shown for one near it. -/
def isNear (rs : List Row) (before after : Nat) (number : Nat) : Bool :=
  rs.any fun r => r.isSelected && r.number ≤ number + before && number ≤ r.number + after

/-- A search as it was asked for: the expressions' texts, where to look, and how much to show around
a line. -/
structure Quest where
  texts : List Bytes
  operands : List Bytes
  most : Option Nat
  before : Nat
  after : Nat

/-- What a call asks for, or why it cannot be done. -/
def quest? (u : Usage) : StateM Work (Except Bytes Quest) := do
  let given := u.switches.filter fun s => s.1 = 'e' ∨ s.1 = 'f'
  let read (s : Char × Bytes) : StateM Work (Except Bytes (List Bytes)) := do
    if s.1 = 'e' then return .ok (unlined s.2)
    else match ← operand s.2 with
      | .ok bs => return .ok ((lines bs).map chomp)
      | .error e => return .error (s.2 ++ bytes ": " ++ refusal e)
  let texts ← given.mapM read
  let (texts, operands) := if given.isEmpty then ([.ok (unlined (u.operands.headD []))],
    u.operands.drop 1) else (texts, u.operands)
  let wide := ['A', 'B', 'C'].filterMap u.last?
  return do
    let texts ← texts.mapM id
    if (u.last? 'm').any fun m => (number? m).isNone then throw (bytes "invalid max count")
    match wide.find? fun x => (number? x).isNone with
    | some bad => throw (bad ++ bytes ": invalid context length argument")
    | none =>
      let around (letter : Char) : Nat :=
        (((u.last? letter).or (u.last? 'C')).bind number?).getD 0
      return ⟨texts.flatten, operands, (u.last? 'm').bind number?, around 'B', around 'A'⟩

/-- The search for some texts. -/
def search? (u : Usage) (texts : List Bytes) : Except Regex.Defect Search := do
  let kind := (u.lastOf? ['E', 'F', 'G', 'P']).map (·.1)
  let isExtended := kind = some 'E' || kind = some 'P'
  let expressions ← texts.mapM fun bs =>
    if kind = some 'F' then .ok (Regex.ofLiteral bs)
    else (Regex.ofBytes? isExtended isExtended bs).map (·.1)
  return ⟨expressions, ⟨u.has 'i' || u.has 'y', false⟩, u.has 'w', u.has 'x'⟩

/-- The files in a directory and those in it. -/
def filesUnder (t : FileTree) (dir : Bytes) : List Bytes :=
  (treeOf t (Tool.names t) t.nodes.length dir).flatMap fun d =>
    match t.look ⟨d⟩ with
    | .ok (here, _) => ((Tool.names t here).map (inDirectory d)).filter fun p => !t.isDirectory ⟨p⟩
    | .error _ => []

/-- Prints the rows of a file that are selected or near one that is. What was shown before is
separated from them. -/
def showRows (u : Usage) (q : Quest) (s : Search) (title : Bytes) (shown : Bool) (rs : List Row) :
    StateM Work Unit := do
  let front (r : Row) (mark : Char) (offset : Nat) : Bytes :=
    (if title = [] then [] else title ++ [byte mark]) ++
      (if u.has 'n' then decimal r.number ++ [byte mark] else []) ++
      if u.has 'b' then decimal offset ++ [byte mark] else []
  let _ ← (rs.filter fun r => isNear rs q.before q.after r.number).foldlM
    (fun (previous : Option Nat) r => do
      let parted := previous.all (· + 1 ≠ r.number) && (previous.isSome || shown)
      if parted && 0 < q.before + q.after then
        printLine (bytes "--")
      if u.has 'o' then
        if r.isSelected && !u.has 'v' then
          (s.parts r.text.toArray (r.text.length + 1) 0).forM fun (a, part) =>
            printLine (front r ':' (r.offset + a) ++ part)
      else printLine (front r (if r.isSelected then ':' else '-') r.offset ++ r.text)
      return some r.number) none

/-- How a search went so far: whether something was selected, whether a file could not be read, and
whether lines were shown. -/
structure Progress where
  isHit : Bool
  isBad : Bool
  isShown : Bool

/-- Search in one more file. -/
def searchIn (u : Usage) (q : Quest) (s : Search) (c : Call) (titled : Bool) (p : Progress)
    (name : Bytes) : StateM Work Progress := do
  if u.has 'q' ∧ p.isHit then return p
  match ← operand name with
  | .error e =>
    if !u.has 's' then say c (name ++ bytes ": " ++ refusal e)
    return { p with isBad := true }
  | .ok text =>
    let title := if name = bytes "-" then bytes "(standard input)" else name
    let select (line : Bytes) : Bool := (s.find? line.toArray 0).isSome != u.has 'v'
    let isBinary := text.contains 0 && !u.has 'a'
    let text := if isBinary then text.map fun b => if b = 0 then 0x0A else b else text
    let rs := rows select q.most q.after text
    let count := rs.countP (·.isSelected)
    let reached := { p with isHit := p.isHit || 0 < count }
    if u.has 'q' then return reached
    else if u.has 'l' || u.has 'L' then
      if (0 < count) = u.has 'l' then printLine title
      return reached
    else if u.has 'c' then
      printLine ((if titled then title ++ bytes ":" else []) ++ decimal count)
      return reached
    else if isBinary then
      if 0 < count then say c (title ++ bytes ": binary file matches")
      return reached
    else
      showRows u q s (if titled then title else []) p.isShown rs
      return { reached with isShown := p.isShown || 0 < count }

/-- Prints the lines in which an expression holds. Nothing is coloured. -/
def grep : Tool := fun c =>
  let args := c.args.filter fun a => !(bytes "--color").isPrefixOf a
  match usage searchSwitches (args.length + 1) args with
  | .error .asked =>
    printLine (bytes "Usage: " ++ c.name ++ bytes " [OPTION]... PATTERNS [FILE]...")
  | .error e => misusedSearch c e.message
  | .ok u => do
    if u.operands.isEmpty && !(u.has 'e' || u.has 'f') then misusedSearch c []
    else match ← quest? u with
    | .error text => complainWith 2 c text
    | .ok q =>
      match search? u q.texts with
      | .error e => complainWith 2 c (bytes e.message)
      | .ok s =>
        let t ← files
        let deep := u.has 'r' || u.has 'R'
        let places :=
          if q.operands.isEmpty && deep then (filesUnder t (bytes ".")).map (·.drop 2)
          else (sources q.operands).flatMap fun p =>
            if deep && t.isDirectory ⟨p⟩ then filesUnder t p else [p]
        let titled := ((u.lastOf? ['H', 'h']).map fun s => s.1 == 'H').getD
          (deep || 1 < q.operands.length)
        let p ← places.foldlM (searchIn u q s c titled) ⟨false, false, false⟩
        if u.has 'q' && p.isHit then endWith 0
        else if p.isBad then endWith 2
        else if !p.isHit then endWith 1

end DownloadTriage.Tool
