import DownloadTriage.Process.Edit
import DownloadTriage.Process.Tool.Search

/-!
# A tool that edits

`sed` reads lines, does what a script says for them, and prints what becomes of them.
-/

namespace DownloadTriage.Tool

open Script

/-- A line that is to be read: its text, whether it has an end, the file it is from, its number, and
whether it is the last. -/
structure Source where
  text : Bytes
  isEnded : Bool
  file : Bytes
  number : Nat
  isLast : Bool

/-- The state of an editor. A step without a command reads the next line. -/
structure Editor where
  ahead : List Source
  line : Source
  space : Bytes
  held : Bytes
  /-- The command that comes next. -/
  place : Option Nat
  /-- What is printed when the work on a line ends. -/
  waiting : List Bytes
  /-- Whether something was replaced since the line was read or a jump was made. -/
  hasReplaced : Bool
  /-- The ranges that are open, by their commands, and the line that ends them. -/
  opened : List (Nat × Option Nat)
  lastUsed : Option Regex
  /-- Whether the last line printed has no end yet. -/
  isOpen : Bool
  /-- Whether the next round works on what is left of this one. -/
  keeps : Bool
  printed : List Bytes
  files : FileTree
  written : List Bytes
  /-- Set at the end. -/
  status : Option Nat

namespace Editor

/-- Print a text that may lack its end. -/
def print (e : Editor) (text : Bytes) (isEnded : Bool) : Editor :=
  { e with
    printed := ((if e.isOpen then [0x0A] else []) ++ text ++ if isEnded then [0x0A] else []) ::
      e.printed
    isOpen := !isEnded }

/-- Add to a file, which is emptied the first time. -/
def write (e : Editor) (name text : Bytes) : Editor :=
  if name = bytes "/dev/stdout" then e.print text true
  else
    let old := if e.written.contains name then ((e.files.read ⟨name⟩).toOption.getD #[]) else #[]
    match e.files.write ⟨name⟩ (old ++ (text ++ [0x0A]).toArray) with
    | .ok files => { e with files, written := name :: e.written }
    | .error _ => e

/-- Print a text as it is. -/
def put (e : Editor) (text : Bytes) : Editor :=
  if text = [] then e
  else { e with
    printed := ((if e.isOpen then [0x0A] else []) ++ text) :: e.printed
    isOpen := false }

/-- Print what waits for the end of the work on a line. -/
def flush (e : Editor) : Editor := { e.waiting.foldl put e with waiting := [] }

/-- End the work on a line, and print what became of it if that is asked for. -/
def finish (e : Editor) (isSilent : Bool) : Editor :=
  (if isSilent then e else e.print e.space e.line.isEnded).flush

/-- Whether an expression holds in the line. The one used last stands for one that is left out. -/
def expression (e : Editor) (r : Option Regex) : Regex × Editor :=
  let r := (r.or e.lastUsed).getD .empty
  (r, { e with lastUsed := some r })

/-- Whether a line has an address. -/
def hasAddress (e : Editor) : Edit.Address → Bool × Editor
  | .line n => (e.line.number == n, e)
  | .last => (e.line.isLast, e)
  | .every first step =>
    (if step = 0 then e.line.number == first
      else decide (first ≤ e.line.number) && (e.line.number - first) % step == 0, e)
  | .holds r m =>
    let (r, e) := e.expression r
    ((r.search? m e.space.toArray 0 fun _ _ => true).isSome, e)

/-- The line that ends a range which begins here, if that is known. -/
def stopOf (n : Nat) : Edit.Bound → Option Nat
  | .address (.line m) => some m
  | .address _ => none
  | .more k => some (n + k)
  | .multiple k => some (if k = 0 then n else (n + k - 1) / k * k)

/-- Whether the command of a number is for the line. -/
def selects (e : Editor) (i : Nat) (sel : Edit.Selection) : Bool × Editor :=
  let n := e.line.number
  let closed (e : Editor) : Editor := { e with opened := e.opened.filter (·.1 ≠ i) }
  let (yes, e) := match sel.first, sel.bound, e.opened.lookup i with
    | none, _, _ => (true, e)
    | some a, none, _ => e.hasAddress a
    | some _, some _, some (some m) => (decide (n ≤ m), if m ≤ n then closed e else e)
    | some _, some (.address b), some none =>
      let (here, e) := e.hasAddress b
      (true, if here then closed e else e)
    | some _, some _, some none => (true, e)
    | some a, some b, none =>
      let (here, e) := e.hasAddress a
      let stop := stopOf n b
      (here, if here && !stop.any (· ≤ n) then { e with opened := (i, stop) :: e.opened } else e)
  (yes != sel.isNegated, e)

/-- Make the letters of a text upper or lower. -/
def cased (c : Edit.Casing) (bs : Bytes) : Bytes :=
  bs.map fun b =>
    match c with
    | .upper => if byte 'a' ≤ b ∧ b ≤ byte 'z' then b - 0x20 else b
    | .lower => if byte 'A' ≤ b ∧ b ≤ byte 'Z' then b + 0x20 else b
    | .asIs => b

/-- The text that pieces make, where a casing holds up to the next one, and the casing of one letter
before that. -/
def assembled (part : Nat → Bytes) (c : Edit.Casing) (next : Option Edit.Casing) :
    List Edit.Piece → Bytes
  | [] => []
  | .casing c :: ps => assembled part c none ps
  | .nextCasing c' :: ps => assembled part c (some c') ps
  | .text bs :: ps => shaped bs ++ assembled part c (if bs = [] then next else none) ps
  | .part n :: ps =>
    shaped (part n) ++ assembled part c (if part n = [] then next else none) ps
where
  /-- A text with the casings that hold. -/
  shaped (bs : Bytes) : Bytes :=
    match next with
    | some one => cased one (bs.take 1) ++ cased c (bs.drop 1)
    | none => cased c bs

/-- A text with some of the places replaced where an expression holds, at most `n` from `i` on, and
whether any was. An empty place right behind the one before does not count. -/
def replaced (s : Edit.Substitution) (r : Regex) (text : Array UInt8) :
    Nat → (seen i : Nat) → (previous : Option Nat) → Bytes × Bool
  | 0, _, i, _ => ((text.extract i text.size).toList, false)
  | n + 1, seen, i, previous =>
    match r.search? s.mode text i fun a b => a < b || previous ≠ some a with
    | none => ((text.extract i text.size).toList, false)
    | some (a, f) =>
      let before := (text.extract i a).toList
      let counts := s.nth ≤ seen + 1
      let here := if counts then assembled (f.part a text) .asIs none s.pieces
        else (text.extract a f.stop).toList
      if counts && !s.isGlobal then
        (before ++ here ++ (text.extract f.stop text.size).toList, true)
      else
        let (after, more) := replaced s r text n (seen + 1) f.stop (some f.stop)
        (before ++ here ++ after, counts || more)

/-- A line as `l` shows it, with bytes that cannot be printed in octal. -/
def spelled (bs : Bytes) : List Bytes :=
  bs.map fun b =>
    match [(0x5C, '\\'), (0x07, 'a'), (0x08, 'b'), (0x0C, 'f'), (0x0A, 'n'), (0x0D, 'r'),
      (0x09, 't'), (0x0B, 'v')].lookup b with
    | some c => [0x5C, byte c]
    | none =>
      if 0x20 ≤ b ∧ b < 0x7F then [b]
      else
        let digit (n : Nat) : UInt8 := byte '0' + UInt8.ofNat (n % 8)
        [0x5C, digit (b.toNat / 64), digit (b.toNat / 8), digit b.toNat]

/-- Spelled bytes in rows of at most `width`, counting a backslash at the end of all but the
last. -/
def folded (width : Nat) (row : Bytes) : List Bytes → Bytes
  | [] => row ++ bytes "$\n"
  | g :: gs =>
    if width ≤ 1 ∨ row.length + g.length < width then folded width (row ++ g) gs
    else row ++ bytes "\\\n" ++ folded width g gs

/-- The first line of a text. -/
def firstLine (bs : Bytes) : Bytes := bs.takeWhile (· ≠ 0x0A)

/-- Take the next line into the space, behind what is there already if that is asked for. -/
def load (e : Editor) (behind : Bool) : Option Editor :=
  match e.ahead with
  | [] => none
  | l :: ahead => some { e with
      ahead
      line := l
      space := if behind then e.space ++ 0x0A :: l.text else l.text }

/-- End the work on a line and begin with the next. -/
def turn (e : Editor) (isSilent : Bool) : Editor := { e.finish isSilent with place := none }

/-- Go on at a label, or at the end of the script. -/
def goTo (script : Array Edit.Command) (e : Editor) (name : Bytes) : Editor :=
  let target := script.findIdx? fun c => c.action = .label name
  { e with place := some (target.getD script.size) }

/-- Do what a command does. What is silent prints a line only if it is told to. -/
def perform (script : Array Edit.Command) (isSilent : Bool) (i : Nat) (e : Editor) :
    Edit.Action → Editor
  | .block _ => e
  | .nothing => e
  | .label _ => e
  | .jump .always name => e.goTo script name
  | .jump .ifReplaced name =>
    if e.hasReplaced then { e with hasReplaced := false }.goTo script name else e
  | .jump .unlessReplaced name =>
    if e.hasReplaced then { e with hasReplaced := false } else e.goTo script name
  | .quit status silently => { e.finish (isSilent || silently) with status := some status }
  | .delete => { e.flush with place := none }
  | .deleteFirst =>
    if e.space.contains 0x0A then
      { e.flush with
        space := e.space.drop ((firstLine e.space).length + 1), keeps := true, place := none }
    else { e.flush with place := none }
  | .print => e.print e.space e.line.isEnded
  | .printFirst =>
    if e.space.contains 0x0A then e.print (firstLine e.space) true
    else e.print e.space e.line.isEnded
  | .number => e.print (decimal e.line.number) true
  | .next =>
    match (if isSilent then e else e.print e.space e.line.isEnded).flush.load false with
    | some e => e
    | none => { e.finish isSilent with status := some 0 }
  | .append =>
    match e.flush.load true with
    | some e => e
    | none => { e.finish isSilent with status := some 0 }
  | .hold => { e with held := e.space }
  | .holdMore => { e with held := e.held ++ 0x0A :: e.space }
  | .recall => { e with space := e.held }
  | .recallMore => { e with space := e.space ++ 0x0A :: e.held }
  | .swap => { e with space := e.held, held := e.space }
  | .clear => { e with space := [] }
  | .show width => e.put (folded (width.getD 70) [] (spelled e.space))
  | .fileName => e.print e.line.file true
  | .text .behind bs => { e with waiting := e.waiting ++ [bs] }
  | .text .before bs => e.put bs
  | .text .instead bs =>
    let isWithin := (e.opened.any (·.1 = i)) && !(script[i]?.any (·.selection.isNegated))
    let e := if isWithin then e else e.put bs
    { e.flush with place := none }
  | .readFile name =>
    let text := if name = bytes "/dev/stdin" then #[] else (e.files.read ⟨name⟩).toOption.getD #[]
    { e with waiting := e.waiting ++ [text.toList] }
  | .writeFile name firstOnly => e.write name (if firstOnly then firstLine e.space else e.space)
  | .exchange pairs => { e with space := e.space.map fun b => (pairs.lookup b).getD b }
  | .substitute s =>
    let (r, e) := e.expression s.expression
    let (text, any) := replaced s r e.space.toArray (e.space.length + 2) 0 0 none
    if !any then e
    else
      let e := { e with space := text, hasReplaced := true }
      let e := if s.prints then e.print e.space e.line.isEnded else e
      match s.file with
      | some name => e.write name e.space
      | none => e

/-- One step: the next line, or the next command. -/
def step (script : Array Edit.Command) (isSilent : Bool) (e : Editor) : Editor :=
  match e.place with
  | none =>
    if e.keeps then { e with keeps := false, place := some 0 }
    else match e.load false with
      | some e => { e with place := some 0, hasReplaced := false }
      | none => { e with status := some 0 }
  | some i =>
    match script[i]? with
    | none => e.turn isSilent
    | some c =>
      let (yes, e) := e.selects i c.selection
      let e := { e with place := some (i + 1) }
      if yes then e.perform script isSilent i c.action
      else match c.action with
        | .block stop => { e with place := some stop }
        | _ => e

/-- At most `n` steps, up to the end. -/
def run (script : Array Edit.Command) (isSilent : Bool) : Nat → Editor → Editor
  | 0, e => e
  | n + 1, e => if e.status.isSome then e else run script isSilent n (e.step script isSilent)

end Editor

/-- How many steps an editor makes before it counts as endless. -/
def editorSteps : Nat := 200000

/-- The switches of the editor. -/
def editSwitches : List Switch :=
  [flag 'n' "quiet", flag 'n' "silent", setting 'e' "expression", setting 'f' "file",
    flag 'E' "regexp-extended", flag 'r' "", flag 'i' "in-place", flag 's' "separate",
    flag 'u' "unbuffered", flag 'z' "null-data"]

/-- The lines of a file. -/
def sourcesOf (file text : Bytes) : List Source :=
  (lines text).mapIdx fun i l => ⟨chomp l, l.getLast? = some 0x0A, file, i + 1, false⟩

/-- Lines of which the last is known, numbered in a row. -/
def numbered (ls : List Source) : List Source :=
  ls.mapIdx fun i l => { l with number := i + 1, isLast := i + 1 = ls.length }

/-- An editor at the start of some lines. -/
def Editor.begin (script : Array Edit.Command) (files : FileTree) (ls : List Source) : Editor where
  ahead := ls
  line := ⟨[], true, [], 0, false⟩
  space := []
  held := []
  place := none
  waiting := []
  hasReplaced := false
  opened := (script.toList.mapIdx fun i c => (i, c)).filterMap fun (i, c) =>
    if c.selection.first = some (.line 0) then some (i, none) else none
  lastUsed := none
  isOpen := false
  keeps := false
  printed := []
  files
  written := []
  status := none

/-- Where a script is wrong, and how. Its parts are in rows of their own. -/
def editDefect (script : Bytes) (d : Edit.Defect) : Bytes :=
  let place := match d.left with
    | some left => script.take (script.length - left)
    | none => []
  let row := if d.left.isSome then place.count 0x0A + 1 else 1
  let column := (place.reverse.takeWhile (· ≠ 0x0A)).length
  bytes s!"-e expression #{row}, char {column}: " ++ d.message

/-- What is added to the name of a file that is kept as it was, if an argument says so. -/
def keptSuffix? (arg : Bytes) : Option Bytes :=
  if (bytes "-i").isPrefixOf arg ∧ 2 < arg.length then some (arg.drop 2)
  else if (bytes "--in-place=").isPrefixOf arg then some (arg.drop 11)
  else none

/-- Edits lines. -/
def sed : Tool := fun c =>
  let kept := c.args.findSome? keptSuffix?
  let args := c.args.map fun a => if (keptSuffix? a).isSome then bytes "-i" else a
  match usage editSwitches (args.length + 1) args with
  | .error .asked => printLine (bytes "Usage: " ++ c.name ++
      bytes " [OPTION]... \x7bscript-only-if-no-other-script\x7d [input-file]...")
  | .error e => complain c e.message
  | .ok u => do
    let given := u.switches.filter fun s => s.1 = 'e' ∨ s.1 = 'f'
    let t ← files
    let missing := given.find? fun s => s.1 = 'f' && (t.read ⟨s.2⟩).toOption.isNone
    let texts := given.map fun s =>
      if s.1 = 'e' then s.2 else chomp ((t.read ⟨s.2⟩).toOption.getD #[]).toList
    let script := if given.isEmpty then u.operands.headD [] else [0x0A].intercalate texts
    let operands := if given.isEmpty then u.operands.drop 1 else u.operands
    match missing, Edit.ofBytes? (u.has 'E' || u.has 'r') script with
    | some s, _ => complain c (bytes "couldn't open file " ++ s.2 ++ bytes ": " ++
        refusal ((t.read ⟨s.2⟩).toOption.elim .notFound fun _ => .notFound))
    | none, .error d => complain c (editDefect script d)
    | none, .ok commands =>
      let target? (a : Edit.Action) : Option Bytes := match a with
        | .jump _ name => some name
        | _ => none
      let lost := (commands.toList.filterMap fun d => target? d.action).find? fun name =>
        name ≠ [] && commands.all fun d => d.action ≠ .label name
      match lost with
      | some name => complain c (bytes "can't find label for jump to `" ++ name ++ bytes "'")
      | none =>
        let read (name : Bytes) : StateM Work (List Source) := do
          match ← operand name with
          | .ok text => return sourcesOf name text
          | .error .isDirectory =>
            complainWith 2 c (if u.has 'i' then bytes "couldn't edit " ++ name ++
              bytes ": not a regular file" else bytes "read error on " ++ name ++
              bytes ": Is a directory")
            return []
          | .error e =>
            complainWith 2 c (bytes "can't read " ++ name ++ bytes ": " ++ refusal e)
            return []
        let sets ← (sources operands).mapM read
        let sets := if u.has 'i' || u.has 's' then sets.map numbered else [numbered sets.flatten]
        let edit (ls : List Source) : StateM Work Unit := do
          let e := (Editor.begin commands (← files) ls).run commands (u.has 'n') editorSteps
          setFiles e.files
          let text := e.printed.reverse.flatten
          if u.has 'i' then
            match ls with
            | l :: _ =>
              let t ← files
              let old := (t.read ⟨l.file⟩).toOption.getD #[]
              let t := kept.elim t fun suffix => (t.write ⟨l.file ++ suffix⟩ old).toOption.getD t
              setFiles ((t.write ⟨l.file⟩ text.toArray).toOption.getD t)
            | [] => pure ()
          else print text
          match e.status with
          | some 0 => pure ()
          | some n => endWith n
          | none => modify fun w => { w with durationMs := none }
        if u.has 'i' then sets.forM edit
        else edit sets.flatten

end DownloadTriage.Tool
