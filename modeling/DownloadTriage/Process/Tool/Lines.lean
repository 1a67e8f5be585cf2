import DownloadTriage.Process.Tool.Basic

/-!
# Tools that show lines

Tools that print the lines of files, some of them, or how many there are.

* `flatten_lines`: the lines of a text make up the text.
-/

namespace DownloadTriage.Tool

open Script

/-- The lines of a text, each with its end. -/
def lines : Bytes → List Bytes
  | [] => []
  | b :: bs =>
    if b = 0x0A then [b] :: lines bs
    else match lines bs with
      | [] => [[b]]
      | l :: ls => (b :: l) :: ls

theorem flatten_lines (bs : Bytes) : (lines bs).flatten = bs := by
  induction bs with
  | nil => rfl
  | cons b bs ih =>
    rw [lines]
    split
    · rw [List.flatten_cons, ih]; rfl
    · cases h : lines bs with
      | nil => rw [h] at ih; simp [← ih]
      | cons l ls => rw [h] at ih; simp [← ih]

/-- A line without its end. -/
def chomp (line : Bytes) : Bytes :=
  if line.getLast? = some 0x0A then line.dropLast else line

/-- A line with an end. -/
def ended (line : Bytes) : Bytes := chomp line ++ [0x0A]

/-- A number in a field. -/
def padded (width n : Nat) : Bytes :=
  let ds := decimal n
  List.replicate (width - ds.length) 0x20 ++ ds

/-! ## Whole files -/

/-- A byte as `cat` shows what cannot be printed. -/
def visible (tabs : Bool) (b : UInt8) : Bytes :=
  let plain (b : UInt8) : Bytes :=
    if b = 0x09 ∧ !tabs then [b]
    else if b < 0x20 then [byte '^', b + 0x40]
    else if b = 0x7F then bytes "^?"
    else [b]
  if b = 0x0A then [b]
  else if b < 0x80 then plain b
  else
    let low := b - 0x80
    bytes "M-" ++ (if low = 0x09 ∨ low = 0x0A then [byte '^', low + 0x40] else plain low)

/-- The lines of `cat` with what the switches add; `n` numbers the next line, and `blank` says that
the line before was empty. -/
def catLines (u : Usage) (n : Nat) (blank : Bool) : List Bytes → Bytes
  | [] => []
  | l :: ls =>
    let empty := l = [0x0A]
    if empty ∧ blank ∧ u.has 's' then catLines u n true ls
    else
      let numbered := (u.has 'b' && !empty) || (u.has 'n' && !u.has 'b')
      let unprintable := u.has 'v' || u.has 'A' || u.has 'e' || u.has 't'
      let tabs := u.has 'T' || u.has 'A' || u.has 't'
      let ends := u.has 'E' || u.has 'A' || u.has 'e'
      let shown := (chomp l).flatMap fun b =>
        if unprintable then visible tabs b
        else if tabs ∧ b = 0x09 then bytes "^I"
        else [b]
      let close : Bytes := if l = chomp l then [] else (if ends then [byte '$'] else []) ++ [0x0A]
      (if numbered then padded 6 n ++ [0x09] else []) ++ shown ++ close ++
        catLines u (if numbered then n + 1 else n) empty ls

/-- Prints files one after the other. -/
def cat : Tool :=
  let known := [flag 'b' "number-nonblank", flag 'n' "number", flag 's' "squeeze-blank",
    flag 'v' "show-nonprinting", flag 'E' "show-ends", flag 'T' "show-tabs", flag 'A' "show-all",
    flag 'e' "", flag 't' "", flag 'u' ""]
  withUsage 1 known fun u c => do
    if u.switches.all (·.1 = 'u') then
      (sources u.operands).forM fun name => do
        match ← operand name with
        | .ok data => print data
        | .error e => complain c (Quoted.name name ++ bytes ": " ++ refusal e)
    else
      let all ← (sources u.operands).foldlM (fun (all : Bytes) name => do
        match ← operand name with
        | .ok data => return all ++ data
        | .error e =>
          complain c (Quoted.name name ++ bytes ": " ++ refusal e)
          return all) []
      print (catLines u 1 false (lines all))

/-- Prints the lines of files backwards, or the bytes of each line. -/
def reversed (known : List Switch) (turn : Bytes → Bytes) (failure : Bytes → FileError → Bytes) :
    Tool :=
  withUsage 1 known fun u c =>
    (sources u.operands).forM fun name => do
      match ← operand name with
      | .ok data => print (turn data)
      | .error e => complain c (failure name e)

/-- Prints files from their last lines to their first. -/
def tac : Tool :=
  reversed [flag 'b' "before"] (fun data => ((lines data).reverse).flatten) fun name e =>
    match e with
    | .isDirectory => Quoted.name name ++ bytes ": read error: Is a directory"
    | e => bytes "failed to open " ++ Quoted.always name ++ bytes " for reading: " ++ refusal e

/-- Prints each line backwards. -/
def rev : Tool :=
  reversed [] (fun data => (lines data).flatMap fun l =>
    (chomp l).reverse ++ (if l = chomp l then [] else [0x0A])) fun name e =>
    bytes "cannot open " ++ name ++ bytes ": " ++ refusal e

/-! ## Parts of files -/

/-- What a count stands for that is written with a unit. -/
def unit? (bs : Bytes) : Option Nat :=
  [([], 1), (bytes "b", 512), (bytes "K", 1024), (bytes "k", 1024), (bytes "kB", 1000),
    (bytes "KB", 1000), (bytes "KiB", 1024), (bytes "M", 1048576), (bytes "MB", 1000000),
    (bytes "MiB", 1048576), (bytes "G", 1073741824), (bytes "GB", 1000000000)].lookup bs

/-- A count with a unit. -/
def count? (bs : Bytes) : Option Nat := do
  let n ← number? (bs.takeWhile isDigit)
  let k ← unit? (bs.dropWhile isDigit)
  return n * k

/-- A part of a list, counted from one of its ends. -/
inductive Portion where
  | first (n : Nat)
  | allButLast (n : Nat)
  | last (n : Nat)
  | startingAt (n : Nat)
  deriving DecidableEq, Repr

/-- The part of a list. -/
def Portion.of {α : Type} (p : Portion) (xs : List α) : List α :=
  match p with
  | .first n => xs.take n
  | .allButLast n => xs.take (xs.length - n)
  | .last n => xs.drop (xs.length - n)
  | .startingAt n => xs.drop (n - 1)

/-- A count in front of everything, such as `-5`, as a switch. -/
def oldCount (args : List Bytes) : List Bytes :=
  match args with
  | (0x2D :: b :: bs) :: rest =>
    if isDigit b then
      let digits := (b :: bs).takeWhile isDigit
      let unit := (b :: bs).dropWhile isDigit
      if unit = [] ∨ unit = bytes "l" then bytes "-n" :: digits :: rest
      else if unit = bytes "c" then bytes "-c" :: digits :: rest
      else args
    else args
  | args => args

/-- The switches of tools that print a part of a file. -/
def portionSwitches : List Switch :=
  [setting 'n' "lines", setting 'c' "bytes", flag 'q' "quiet", flag 'q' "silent",
    flag 'v' "verbose", flag 'f' "follow"]

/-- The part that is asked for, in bytes or in lines, or the text that is no count. -/
def portion? (portionOf : Bytes → Option Portion) (usual : Portion) (u : Usage) :
    Except Bytes (Bool × Portion) :=
  match u.lastOf? ['n', 'c'] with
  | none => .ok (false, usual)
  | some (letter, arg) =>
    match portionOf arg with
    | some p => .ok (letter = 'c', p)
    | none =>
      let what := if letter = 'c' then "bytes" else "lines"
      .error (bytes ("invalid number of " ++ what ++ ": '") ++ arg ++ bytes "'")

/-- Prints a part of each file, under its name if there are several. -/
def portions (portionOf : Bytes → Option Portion) (usual : Portion) : Tool := fun c =>
  withUsage 1 portionSwitches (fun u c =>
    match portion? portionOf usual u with
    | .error text => complain c text
    | .ok (inBytes, p) => do
      let names := sources u.operands
      let titled := (1 < names.length || u.has 'v') && !u.has 'q'
      let _ ← names.foldlM (fun (first : Bool) name => do
        let title := do
          let shown := if name = bytes "-" then bytes "standard input" else name
          if titled then
            print ((if first then [] else [0x0A]) ++ bytes "==> " ++ shown ++ bytes " <==\n")
        match ← operand name with
        | .ok data =>
          title
          print (if inBytes then p.of data else (p.of (lines data)).flatten)
          return false
        | .error .isDirectory =>
          title
          complain c (bytes "error reading " ++ Quoted.always name ++ bytes ": Is a directory")
          return false
        | .error e =>
          complain c (bytes "cannot open " ++ Quoted.always name ++ bytes " for reading: " ++
            refusal e)
          return first) true) { c with args := oldCount c.args }

/-- Prints the first part of files. -/
def head : Tool :=
  portions (fun bs => match bs with
    | 0x2D :: ds => (count? ds).map .allButLast
    | ds => (count? ds).map .first) (.first 10)

/-- Prints the last part of files. -/
def tail : Tool :=
  portions (fun bs => match bs with
    | 0x2B :: ds => (count? ds).map .startingAt
    | 0x2D :: ds => (count? ds).map .last
    | ds => (count? ds).map .last) (.last 10)

/-! ## Counts -/

/-- What is counted in a text. -/
structure Counts where
  lines : Nat
  words : Nat
  characters : Nat
  bytes : Nat
  longest : Nat
  deriving DecidableEq, Repr

/-- The counts of a text. A character is a byte that begins one. -/
def Counts.of (text : Bytes) : Counts :=
  let blank (b : UInt8) : Bool := b = 0x20 || (9 ≤ b && b ≤ 13)
  let starts := text.zip (0x20 :: text)
  ⟨text.count 0x0A, starts.countP fun (b, before) => !blank b && blank before,
    text.length, text.length, ((Tool.lines text).map fun l => (chomp l).length).foldl max 0⟩

/-- The counts together. -/
def Counts.add (a b : Counts) : Counts :=
  ⟨a.lines + b.lines, a.words + b.words, a.characters + b.characters, a.bytes + b.bytes,
    max a.longest b.longest⟩

/-- Prints how many lines, words and bytes there are. -/
def wc : Tool :=
  let known := [flag 'c' "bytes", flag 'm' "chars", flag 'l' "lines", flag 'w' "words",
    flag 'L' "max-line-length"]
  withUsage 1 known fun u c => do
    let usual := u.switches.isEmpty
    let shown (k : Counts) : List Nat :=
      (if usual || u.has 'l' then [k.lines] else []) ++
        (if usual || u.has 'w' then [k.words] else []) ++
        (if u.has 'm' then [k.characters] else []) ++
        (if usual || u.has 'c' then [k.bytes] else []) ++
        (if u.has 'L' then [k.longest] else [])
    let t ← files
    let sizes := u.operands.filterMap fun name => (t.stat ⟨name⟩).toOption
    let reads := u.operands.isEmpty || u.operands.contains (bytes "-")
    let odd := (reads && c.inputSize.isNone) || sizes.any (!·.isRegular)
    let total := ((sizes.filter (·.isRegular)).map (·.size)).foldl (· + ·)
      (if reads then c.inputSize.getD 0 else 0)
    let single := u.operands.length ≤ 1 && (shown ⟨0, 0, 0, 0, 0⟩).length = 1
    let width := if single then 1 else max (if odd then 7 else 1) (decimal total).length
    let row (k : Counts) (name : Bytes) : StateM Work Unit :=
      printLine ([0x20].intercalate ((shown k).map (padded width)) ++
        if name = [] then [] else 0x20 :: name)
    let sum ← (sources u.operands).foldlM (fun (sum : Counts) name => do
      match ← operand name with
      | .ok data =>
        row (Counts.of data) (if u.operands.isEmpty then [] else name)
        return sum.add (Counts.of data)
      | .error e =>
        complain c (Quoted.name name ++ bytes ": " ++ refusal e)
        if e = .isDirectory then row ⟨0, 0, 0, 0, 0⟩ name
        return sum) ⟨0, 0, 0, 0, 0⟩
    if 1 < u.operands.length then row sum (bytes "total")

end DownloadTriage.Tool
