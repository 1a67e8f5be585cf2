import DownloadTriage.Digest.Fingerprint
import DownloadTriage.Process.Pattern
import DownloadTriage.Process.Print
import DownloadTriage.Process.Tool.Lines

/-!
# Tools that rearrange text

Tools that change bytes, put lines in order or take them apart, and tools that make text from their
arguments.
-/

namespace DownloadTriage.Tool

open Script

/-- The content of all operands; what cannot be read is complained about. -/
def gather (c : Call) (operands : List Bytes) (failure : Bytes → FileError → Bytes) :
    StateM Work Bytes :=
  (sources operands).foldlM (fun (all : Bytes) name => do
    match ← operand name with
    | .ok data => return all ++ data
    | .error e =>
      complain c (failure name e)
      return all) []

/-- What is said of a file that cannot be read. -/
def unreadable (name : Bytes) (e : FileError) : Bytes :=
  Quoted.name name ++ bytes ": " ++ refusal e

/-! ## Bytes -/

/-- The bytes from one to another. -/
def through (a b : UInt8) : Bytes :=
  (List.range (b.toNat + 1 - a.toNat)).map fun i => a + UInt8.ofNat i

/-- The bytes of a set of `tr`, in at most `n` steps: ranges, classes and escapes. -/
def setBytes : Nat → Bytes → Bytes
  | 0, _ => []
  | _, [] => []
  | n + 1, b :: bs =>
    let named := if b = byte '[' then
        Pattern.classes.find? fun c => (bytes (":" ++ c.1 ++ ":]")).isPrefixOf bs
      else none
    match named with
    | some c => c.2.flatMap (fun r => through r.1 r.2) ++ setBytes n (bs.drop (c.1.length + 3))
    | none =>
      let (first, rest) :=
        if b ≠ byte '\\' then (b, bs)
        else
          let e := Print.escape .program bs
          if e.2 = bs then (bs.headD b, bs.drop 1) else (e.1.headD b, e.2)
      match rest with
      | 0x2D :: e :: more =>
        if first ≤ e then through first e ++ setBytes n more else first :: setBytes n rest
      | rest => first :: setBytes n rest

/-- A text in which a repeated byte of a set stands only once. -/
def squeezed (set : Bytes) (last : Option UInt8) : Bytes → Bytes
  | [] => []
  | b :: bs =>
    if last = some b ∧ set.contains b then squeezed set last bs else b :: squeezed set (some b) bs

/-- Replaces, removes or squeezes bytes of its input. -/
def tr : Tool :=
  let known := [flag 'c' "complement", flag 'C' "", flag 'd' "delete", flag 's' "squeeze-repeats",
    flag 't' "truncate-set1"]
  withUsage 1 known fun u c => do
    let most := if u.has 'd' && !u.has 's' then 1 else 2
    match u.operands[most]?, u.operands.map fun o => setBytes o.length o with
    | _, [] => misused 1 c (bytes "missing operand")
    | some extra, _ =>
      misused 1 c (bytes "extra operand " ++ Quoted.always extra ++
        if most = 1 && u.operands.length = 2 then
          bytes "\nOnly one string may be given when deleting without squeezing repeats."
        else [])
    | none, first :: others =>
      let complement := u.has 'c' || u.has 'C'
      let first := if complement then (through 0 255).filter (!first.contains ·) else first
      let second := others.headD []
      if u.has 'd' && u.has 's' && others.isEmpty then
        misused 1 c (bytes "missing operand after " ++ Quoted.always (u.operands.headD []) ++
          bytes "\nTwo strings must be given when both deleting and squeezing repeats.")
      else if u.has 'd' then
        let kept := (← takeInput).filter (!first.contains ·)
        print (if u.has 's' then squeezed second none kept else kept)
      else if others.isEmpty then
        if u.has 's' then print (squeezed first none (← takeInput))
        else misused 1 c (bytes "missing operand after " ++ Quoted.always (u.operands.headD []) ++
          bytes "\nTwo strings must be given when translating.")
      else
        let last := second.getLast?.getD 0
        let table := first.zip (second ++ List.replicate first.length last)
        let changed := (← takeInput).map fun b => ((table.reverse).lookup b).getD b
        print (if u.has 's' then squeezed second none changed else changed)

/-! ## Lines -/

/-- A whole number at the start of a line, with its fraction in thousandths, for an order by
number. -/
def numberAt (line : Bytes) : Int :=
  let bs := line.dropWhile fun b => b = 0x20 || b = 0x09
  let (negative, ds) := match bs with
    | 0x2D :: ds => (true, ds)
    | ds => (false, ds)
  let whole := ds.takeWhile isDigit
  let part := match ds.drop whole.length with
    | 0x2E :: after => (after.takeWhile isDigit ++ bytes "000").take 3
    | _ => bytes "000"
  let n : Int := ((number? whole).getD 0) * 1000 + ((number? part).getD 0 : Nat)
  if negative then -n else n

/-- The fields of a line: between separators, or runs without blanks with the blanks in front. -/
def fieldsOf (separator : Option UInt8) (line : Bytes) : List Bytes :=
  match separator with
  | some s => split s line
  | none =>
    let blank (b : UInt8) : Bool := b = 0x20 || b = 0x09
    let step (acc : List Bytes × Bool) (b : UInt8) : List Bytes × Bool :=
      match acc with
      | ([], _) => ([[b]], !blank b)
      | (f :: fs, inWord) =>
        if blank b ∧ inWord then ([b] :: f :: fs, false)
        else ((f ++ [b]) :: fs, inWord || !blank b)
    ((line.foldl step ([], false)).1).reverse

/-- The part of a line by which it is ordered, from a field to another. -/
def keyOf (separator : Option UInt8) (arg line : Bytes) : Bytes :=
  let first := (number? (arg.takeWhile isDigit)).getD 1
  let rest := (arg.dropWhile (· ≠ byte ',')).drop 1
  let last := number? (rest.takeWhile isDigit)
  let fields := (fieldsOf separator line).drop (first - 1)
  let fields := match last with
    | some n => fields.take (n + 1 - first)
    | none => fields
  (separator.toList).intercalate fields

/-- Prints lines in order. -/
def sort : Tool :=
  let known := [flag 'r' "reverse", flag 'n' "numeric-sort", flag 'u' "unique",
    flag 'f' "ignore-case", flag 'b' "ignore-leading-blanks", flag 's' "stable",
    setting 'k' "key", setting 't' "field-separator", setting 'o' "output"]
  withUsage 2 known fun u c => do
    let (all, failed) ← (sources u.operands).foldlM (fun (acc : List Bytes × Bool) name => do
      match ← operand name with
      | .ok data => return (acc.1 ++ (lines data).map chomp, acc.2)
      | .error e =>
        if !acc.2 then
          complainWith 2 c (match e with
            | .isDirectory => bytes "read failed: " ++ Quoted.name name ++ bytes ": Is a directory"
            | e => bytes "cannot read: " ++ Quoted.name name ++ bytes ": " ++ refusal e)
        return (acc.1, true)) ([], false)
    if !failed then
      let arg := u.last? 'k'
      let marks := (arg.getD []).dropWhile fun b => isDigit b || b = byte ','
      let reverse := u.has 'r' || marks.contains (byte 'r')
      let numeric := u.has 'n' || marks.contains (byte 'n')
      let fold := u.has 'f' || marks.contains (byte 'f')
      let key (line : Bytes) : Bytes :=
        let k := match arg with
          | some a => keyOf ((u.last? 't').bind List.head?) a line
          | none => line
        let k := if u.has 'b' then k.dropWhile fun b => b = 0x20 || b = 0x09 else k
        if fold then k.map fun b => if byte 'a' ≤ b ∧ b ≤ byte 'z' then b - 32 else b else k
      let keyLe (a b : Bytes) : Bool :=
        if numeric then numberAt (key a) ≤ numberAt (key b) else bytesLe (key a) (key b)
      let le (a b : Bytes) : Bool :=
        let x := if reverse then keyLe b a else keyLe a b
        let y := if reverse then keyLe a b else keyLe b a
        if x && y && !u.has 's' && !u.has 'u' then
          (if u.has 'r' then bytesLe b a else bytesLe a b)
        else x
      let sorted := all.mergeSort le
      let kept := if u.has 'u' then
          sorted.foldr (fun l ls => match ls with
            | m :: _ => if keyLe l m && keyLe m l then l :: ls.drop 1 else l :: ls
            | [] => [l]) []
        else sorted
      let text := kept.flatMap (· ++ [0x0A])
      match u.last? 'o' with
      | none => print text
      | some name =>
        match (← files).write ⟨name⟩ text.toArray with
        | .ok t => setFiles t
        | .error e => complainWith 2 c (bytes "open failed: " ++ unreadable name e)

/-- Runs of equal lines, with their lengths. -/
def runs (same : Bytes → Bytes → Bool) : List Bytes → List (Nat × Bytes)
  | [] => []
  | l :: ls =>
    match runs same ls with
    | (n, m) :: rest => if same l m then (n + 1, l) :: rest else (1, l) :: (n, m) :: rest
    | [] => [(1, l)]

/-- Prints one line of each run of equal lines. -/
def uniq : Tool :=
  let known := [flag 'c' "count", flag 'd' "repeated", flag 'u' "unique", flag 'i' "ignore-case"]
  withUsage 1 known fun u c => do
    let data ← gather c (u.operands.take 1) unreadable
    let lower (l : Bytes) : Bytes :=
      if u.has 'i' then l.map fun b => if byte 'A' ≤ b ∧ b ≤ byte 'Z' then b + 32 else b else l
    let all := runs (fun a b => lower a = lower b) ((lines data).map chomp)
    let kept := all.filter fun r => (!u.has 'd' || 1 < r.1) && (!u.has 'u' || r.1 = 1)
    print (kept.flatMap fun r =>
      (if u.has 'c' then padded 7 r.1 ++ [0x20] else []) ++ r.2 ++ [0x0A])

/-- The places that a list such as `1,3-5` names. -/
def inList (arg : Bytes) (i : Nat) : Bool :=
  (split (byte ',') arg).any fun part =>
    match split (byte '-') part with
    | [a] => number? a = some i
    | [a, b] => (number? a).getD 1 ≤ i && i ≤ (number? b).getD i
    | _ => false

/-- Prints parts of each line. -/
def cut : Tool :=
  let known := [setting 'd' "delimiter", setting 'f' "fields", setting 'c' "characters",
    setting 'b' "bytes", flag 's' "only-delimited"]
  withUsage 1 known fun u c => do
    let chosen {α : Type} (arg : Bytes) (xs : List α) : List α :=
      ((xs.zipIdx 1).filter fun x => inList arg x.2).map (·.1)
    let separator := ((u.last? 'd').bind List.head?).getD 0x09
    match u.lastOf? ['f', 'c', 'b'] with
    | none => misused 1 c (bytes "you must specify a list of bytes, characters, or fields")
    | some (letter, arg) =>
      let data ← gather c u.operands unreadable
      print ((lines data).flatMap fun l =>
        let l := chomp l
        if letter ≠ 'f' then chosen arg l ++ [0x0A]
        else if l.contains separator then
          [separator].intercalate (chosen arg (split separator l)) ++ [0x0A]
        else if u.has 's' then []
        else l ++ [0x0A])

/-- Writes its input to files and to the output. -/
def tee : Tool :=
  withUsage 1 [flag 'a' "append", flag 'i' "ignore-interrupts"] fun u c => do
    let data ← takeInput
    print data
    u.operands.forM fun name => do
      let t ← files
      if name = bytes "/dev/stderr" then
        modify fun w => { w with pieces := (.errors, data) :: w.pieces }
      else if name = bytes "/dev/stdout" then print data
      else
      let old := if u.has 'a' then ((t.read ⟨name⟩).toOption.map Array.toList).getD [] else []
      match t.write ⟨name⟩ (old ++ data).toArray with
      | .ok t => setFiles t
      | .error e => complain c (unreadable name e)

/-! ## Texts from arguments -/

/-- Whether an argument is a number below zero rather than a switch. -/
def isNegative : Bytes → Bool
  | 0x2D :: b :: _ => isDigit b
  | _ => false

/-- Arguments whose switches end at the first number. -/
def switchesFirst (args : List Bytes) : List Bytes :=
  let switches := args.takeWhile fun a => a.head? = some (byte '-') && !isNegative a
  if switches.length < args.length then
    switches ++ bytes "--" :: args.drop switches.length
  else args

/-- Prints whole numbers in a row. -/
def seq : Tool := fun c =>
  withUsage 1 [setting 's' "separator", flag 'w' "equal-width"] (fun u c => do
    let number (bs : Bytes) : Option Int :=
      match bs with
      | 0x2D :: ds => (number? ds).map fun n => -(n : Int)
      | ds => (number? ds).map Int.ofNat
    match u.operands.mapM number with
    | none =>
      let bad := (u.operands.find? fun o => (number o).isNone).getD []
      misused 1 c (bytes "invalid floating point argument: " ++ Quoted.always bad)
    | some numbers =>
      let row (first step last : Int) : StateM Work Unit := do
        let count := if step = 0 then 0 else ((last - first) / step + 1).toNat
        let all := (List.range count).map fun (i : Nat) => first + step * (i : Int)
        let width := if u.has 'w' then
            (all.map fun n => (toString n).length).foldl max 0 else 0
        let shown := all.map fun n =>
          let ds := decimal n.natAbs
          bytes (if n < 0 then "-" else "") ++
            List.replicate (width - (toString n).length) 0x30 ++ ds
        if !shown.isEmpty then
          printLine (((u.last? 's').getD [0x0A]).intercalate shown)
      match numbers with
      | [] => misused 1 c (bytes "missing operand")
      | [last] => row 1 1 last
      | [first, last] => row first 1 last
      | [first, step, last] => row first step last
      | _ => misused 1 c (bytes "extra operand " ++ Quoted.always (u.operands.getD 3 [])))
    { c with args := if c.args.contains (bytes "--") then c.args else switchesFirst c.args }

/-- A path without slashes at its end. -/
def unslashed (p : Bytes) : Bytes :=
  let cut := (p.reverse.dropWhile (· = Path.separator)).reverse
  if cut = [] ∧ p ≠ [] then [Path.separator] else cut

/-- Prints the last name of a path, without an ending. -/
def basename : Tool :=
  let known := [flag 'a' "multiple", setting 's' "suffix", flag 'z' "zero"]
  withUsage 1 known fun u c => do
    let name (p ending : Bytes) : Bytes :=
      let p := unslashed p
      let last := if p = [Path.separator] then p
        else (p.reverse.takeWhile (· ≠ Path.separator)).reverse
      if ending ≠ [] ∧ ending.length < last.length ∧ ending.isSuffixOf last then
        last.take (last.length - ending.length)
      else last
    match u.operands with
    | [] => misused 1 c (bytes "missing operand")
    | p :: rest =>
      if u.has 'a' || u.has 's' then
        (p :: rest).forM fun p => printLine (name p ((u.last? 's').getD []))
      else match rest with
        | [] => printLine (name p [])
        | [ending] => printLine (name p ending)
        | _ :: extra :: _ => misused 1 c (bytes "extra operand " ++ Quoted.always extra)

/-- Prints paths without their last names. -/
def dirname : Tool :=
  withUsage 1 [flag 'z' "zero"] fun u c => do
    let above (p : Bytes) : Bytes :=
      let p := unslashed p
      let before := (p.reverse.dropWhile (· ≠ Path.separator)).reverse
      if before = [] then bytes "." else unslashed before
    if u.operands.isEmpty then misused 1 c (bytes "missing operand")
    else u.operands.forM fun p => printLine (above p)

/-- The letters of base 64. -/
def base64Letters : Bytes :=
  bytes "ABCDEFGHIJKLMNOPQRSTUVWXYZabcdefghijklmnopqrstuvwxyz0123456789+/"

/-- Bytes in base 64. -/
def base64Text : Bytes → Bytes
  | [] => []
  | a :: rest =>
    let letter (n : Nat) : UInt8 := base64Letters.getD n 0
    match rest with
    | [] => [letter (a.toNat / 4), letter (a.toNat % 4 * 16)] ++ bytes "=="
    | [b] =>
      [letter (a.toNat / 4), letter (a.toNat % 4 * 16 + b.toNat / 16),
        letter (b.toNat % 16 * 4)] ++ bytes "="
    | b :: c :: rest =>
      letter (a.toNat / 4) :: letter (a.toNat % 4 * 16 + b.toNat / 16) ::
        letter (b.toNat % 16 * 4 + c.toNat / 64) :: letter (c.toNat % 64) :: base64Text rest

/-- The bytes of a text in base 64, in groups of four letters. -/
def base64Bytes : Bytes → Option Bytes
  | [] => some []
  | a :: b :: c :: d :: rest => do
    let value (x : UInt8) : Option Nat := base64Letters.findIdx? (· = x)
    let p ← value a
    let q ← value b
    let first := UInt8.ofNat (p * 4 + q / 16)
    if c = byte '=' then return [first]
    let r ← value c
    let second := UInt8.ofNat (q % 16 * 16 + r / 4)
    if d = byte '=' then return [first, second]
    let s ← value d
    let more ← base64Bytes rest
    return first :: second :: UInt8.ofNat (r % 4 * 64 + s) :: more
  | _ => none

/-- The pieces of a text, each of at most `width` bytes, where `n` is enough of them. -/
def wrapped (width : Nat) : Nat → Bytes → List Bytes
  | 0, bs => if bs = [] then [] else [bs]
  | n + 1, bs =>
    if bs = [] then [] else bs.take width :: wrapped width n (bs.drop width)

/-- Writes bytes in base 64 or reads them. -/
def base64 : Tool :=
  let known := [flag 'd' "decode", flag 'i' "ignore-garbage", setting 'w' "wrap"]
  withUsage 1 known fun u c => do
    let data ← gather c (u.operands.take 1) unreadable
    if u.has 'd' then
      match base64Bytes (data.filter (· ≠ 0x0A)) with
      | some bs => print bs
      | none => complain c (bytes "invalid input")
    else
      let text := base64Text data
      match ((u.last? 'w').bind number?).getD 76 with
      | 0 => print text
      | width => (wrapped width text.length text).forM printLine

/-- Prints the digest of each file. -/
def digests (digest : Bytes → String) : Tool :=
  withUsage 1 [flag 'b' "binary", flag 't' "text"] fun u c =>
    (sources u.operands).forM fun name => do
      match ← operand name with
      | .ok data => printLine (bytes (digest data) ++ bytes "  " ++ name)
      | .error e => complain c (unreadable name e)

end DownloadTriage.Tool
