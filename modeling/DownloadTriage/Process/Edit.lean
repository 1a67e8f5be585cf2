import DownloadTriage.Process.Regex.Reader

/-!
# Editing scripts

What a stream editor does to the lines it reads: commands, each for some of the lines. The commands
of a script stand in a row, and a block knows where it ends.
-/

namespace DownloadTriage

open Script

namespace Edit

/-- Which lines are meant. An expression that is left out is the one used last. -/
inductive Address where
  | line (n : Nat)
  | last
  | every (first step : Nat)
  | holds (r : Option Regex) (mode : Regex.Mode)
  deriving DecidableEq, Repr

/-- Where a range ends: at an address, after some lines, or at a multiple of a number. -/
inductive Bound where
  | address (a : Address)
  | more (n : Nat)
  | multiple (n : Nat)
  deriving DecidableEq, Repr

/-- The lines that a command is for. -/
structure Selection where
  first : Option Address
  bound : Option Bound
  isNegated : Bool
  deriving DecidableEq, Repr

/-- How letters are changed. -/
inductive Casing where
  | upper
  | lower
  | asIs
  deriving DecidableEq, Repr

/-- A part of what is put in the place of a text. -/
inductive Piece where
  | text (bs : Bytes)
  | part (n : Nat)
  | casing (c : Casing)
  | nextCasing (c : Casing)
  deriving DecidableEq, Repr

/-- What replaces a text: which of the places, and what is done afterwards. -/
structure Substitution where
  expression : Option Regex
  mode : Regex.Mode
  pieces : List Piece
  nth : Nat
  isGlobal : Bool
  prints : Bool
  file : Option Bytes
  deriving DecidableEq, Repr

/-- When a jump is made. -/
inductive JumpCase where
  | always
  | ifReplaced
  | unlessReplaced
  deriving DecidableEq, Repr

/-- Where a text goes. -/
inductive Placing where
  | behind
  | before
  | instead
  deriving DecidableEq, Repr

/-- What a command does. -/
inductive Action where
  | block (stop : Nat)
  | nothing
  | label (name : Bytes)
  | jump (c : JumpCase) (name : Bytes)
  | quit (status : Nat) (isSilent : Bool)
  | delete
  | deleteFirst
  | print
  | printFirst
  | number
  | next
  | append
  | hold
  | holdMore
  | recall
  | recallMore
  | swap
  | clear
  | show (width : Option Nat)
  | fileName
  | text (p : Placing) (bs : Bytes)
  | readFile (name : Bytes)
  | writeFile (name : Bytes) (firstOnly : Bool)
  | exchange (pairs : List (UInt8 × UInt8))
  | substitute (s : Substitution)
  deriving DecidableEq, Repr

/-- A command. -/
structure Command where
  selection : Selection
  action : Action
  deriving DecidableEq, Repr

/-! ## Reading -/

/-- What is wrong with a script and how much of it was read. Without a number the place does not
count. -/
structure Defect where
  message : Bytes
  left : Option Nat
  deriving DecidableEq, Repr

/-- A script that cannot be read, with that much of it left. -/
def wrong {α : Type} (message : String) (left : Bytes) : Except Defect α :=
  .error ⟨bytes message, some left.length⟩

/-- What a letter behind a backslash stands for, if it stands for one byte. -/
def control? (b : UInt8) : Option UInt8 :=
  [(byte 'n', 0x0A), (byte 't', 0x09), (byte 'a', 0x07), (byte 'f', 0x0C), (byte 'v', 0x0B),
    (byte 'r', 0x0D)].lookup b

/-- A text in which the letters for one byte are replaced. -/
def unescaped : Bytes → Bytes
  | [] => []
  | 0x5C :: b :: bs =>
    match control? b with
    | some c => c :: unescaped bs
    | none => if b = 0x5C then b :: unescaped bs else 0x5C :: b :: unescaped bs
  | b :: bs => b :: unescaped bs

/-- A text up to a byte that ends it, at most `n` steps away, with the backslashes in front of that
byte taken away. In an expression a bracket hides the byte. -/
def upTo (close : UInt8) (isExpression : Bool) : Nat → (inBracket : Bool) → Bytes →
    Option (Bytes × Bytes)
  | 0, _, _ => none
  | _, _, [] => none
  | n + 1, true, b :: bs =>
    let inner := if (bytes "^]").isPrefixOf (b :: bs) then 2 else if b = byte ']' then 1 else 0
    let rest := (b :: bs).drop inner
    let body := rest.takeWhile (· ≠ byte ']')
    if body.length < rest.length then
      (upTo close isExpression n false (rest.drop (body.length + 1))).map fun (t, after) =>
        ((b :: bs).take inner ++ unescaped body ++ byte ']' :: t, after)
    else none
  | n + 1, false, b :: bs =>
    if b = close then some ([], bs)
    else if b = 0x5C then
      match bs with
      | [] => none
      | c :: bs =>
        let kept : Bytes :=
          if c = close then [c]
          else match if isExpression then control? c else none with
            | some d => [d]
            | none => [0x5C, c]
        (upTo close isExpression n false bs).map fun (t, after) => (kept ++ t, after)
    else if b = 0x0A ∧ isExpression then none
    else
      (upTo close isExpression n (isExpression && b == byte '[') bs).map fun (t, after) =>
        (b :: t, after)

/-- An expression, where none means the one used last. -/
def expression? (isExtended : Bool) (text left : Bytes) : Except Defect (Option (Regex × Nat)) :=
  if text = [] then .ok none
  else match Regex.ofBytes? isExtended false text with
    | .ok r => .ok (some r)
    | .error e => wrong e.message left

/-- The letters behind an expression of an address. -/
def addressFlags (m : Regex.Mode) : Bytes → Regex.Mode × Bytes
  | [] => (m, [])
  | b :: bs =>
    if b = byte 'I' then addressFlags { m with foldsCase := true } bs
    else if b = byte 'M' then addressFlags { m with isMultiline := true } bs
    else (m, b :: bs)

/-- An address. -/
def address? (isExtended : Bool) (bs : Bytes) : Except Defect (Option Address × Bytes) := do
  let enclosed (close : UInt8) (bs : Bytes) : Except Defect (Option Address × Bytes) :=
    match upTo close true (bs.length + 1) false bs with
    | none => wrong "unterminated address regex" []
    | some (text, rest) => do
      let (m, rest) := addressFlags ⟨false, false⟩ rest
      let r ← expression? isExtended text rest
      return (some (.holds (r.map (·.1)) m), rest)
  match bs with
  | [] => return (none, [])
  | b :: rest =>
    if b = byte '$' then return (some .last, rest)
    else if b = byte '/' then enclosed b rest
    else if b = 0x5C then enclosed (rest.headD 0) (rest.drop 1)
    else match Regex.numeral bs with
      | (none, _) => return (none, bs)
      | (some n, after) =>
        if after.head? = some (byte '~') then
          let (step, after) := Regex.numeral (after.drop 1)
          return (some (.every n (step.getD 0)), after)
        else return (some (.line n), after)

/-- A text without the blanks at its start. -/
def unpadded (bs : Bytes) : Bytes := bs.dropWhile fun b => b = 0x20 || (9 ≤ b && b ≤ 13 && b ≠ 0x0A)

/-- The lines that a command is for, and what comes after them. -/
def selection? (isExtended : Bool) (bs : Bytes) : Except Defect (Selection × Bytes) := do
  let (first, rest) ← address? isExtended bs
  let (bound, rest) ← match first, unpadded rest with
    | some _, 0x2C :: more => do
      let more := unpadded more
      let (n, after) := Regex.numeral (more.drop 1)
      match more.head?.map fun b => Char.ofNat b.toNat, n with
      | some '+', some n => pure (some (Bound.more n), after)
      | some '~', some n => pure (some (Bound.multiple n), after)
      | _, _ =>
        match ← address? isExtended more with
        | (none, rest) => wrong "unexpected `,\x27" (rest.drop 1)
        | (some a, rest) => pure (some (Bound.address a), rest)
    | _, _ => pure (none, rest)
  let allowsZero := match bound with
    | some (.address (.holds _ _)) => true
    | _ => false
  let rest := unpadded rest
  if first = some (.line 0) ∧ !allowsZero then wrong "invalid usage of line address 0" (rest.drop 1)
  else
    let marks := rest.takeWhile (· = byte '!')
    if 1 < marks.length then wrong "multiple `!\x27s" (rest.drop 2)
    else return (⟨first, bound, marks.length = 1⟩, unpadded (rest.drop marks.length))

/-- What replaces a text, as it is written. -/
def pieces : Bytes → List Piece
  | [] => []
  | 0x5C :: b :: bs =>
    let piece : Piece := match Char.ofNat b.toNat with
      | 'U' => .casing .upper
      | 'L' => .casing .lower
      | 'E' => .casing .asIs
      | 'u' => .nextCasing .upper
      | 'l' => .nextCasing .lower
      | _ => if isDigit b then .part (b - byte '0').toNat else .text [(control? b).getD b]
    piece :: pieces bs
  | b :: bs => (if b = byte '&' then Piece.part 0 else .text [b]) :: pieces bs

/-- The letters behind a substitution. -/
def flags (s : Substitution) : Nat → Bytes → Except Defect (Substitution × Bytes)
  | 0, bs => .ok (s, bs)
  | _, [] => .ok (s, [])
  | n + 1, b :: bs =>
    match Char.ofNat b.toNat with
    | 'g' =>
      if s.isGlobal then wrong "multiple `g\x27 options to `s\x27 command" bs
      else flags { s with isGlobal := true } n bs
    | 'p' =>
      if s.prints then wrong "multiple `p\x27 options to `s\x27 command" bs
      else flags { s with prints := true } n bs
    | 'i' => flags { s with mode := { s.mode with foldsCase := true } } n bs
    | 'I' => flags { s with mode := { s.mode with foldsCase := true } } n bs
    | 'm' => flags { s with mode := { s.mode with isMultiline := true } } n bs
    | 'M' => flags { s with mode := { s.mode with isMultiline := true } } n bs
    | 'w' =>
      let name := (unpadded bs).takeWhile (· ≠ 0x0A)
      if name = [] then wrong "missing filename in r/R/w/W commands" []
      else .ok ({ s with file := some name }, (unpadded bs).drop name.length)
    | '}' => .ok (s, b :: bs)
    | '#' => .ok (s, b :: bs)
    | ';' => .ok (s, b :: bs)
    | '\n' => .ok (s, b :: bs)
    | ' ' => flags s n bs
    | _ =>
      match Regex.numeral (b :: bs) with
      | (some 0, rest) => wrong "number option to `s\x27 command may not be zero" rest
      | (some k, rest) => flags { s with nth := k } n rest
      | (none, _) => wrong "unknown option to `s\x27" bs

/-- A substitution, after its letter. -/
def substitution? (isExtended : Bool) (bs : Bytes) : Except Defect (Substitution × Bytes) := do
  let close := bs.headD 0x0A
  match upTo close true (bs.length + 1) false (bs.drop 1) with
  | none => wrong "unterminated `s\x27 command" []
  | some (text, rest) =>
    match upTo close false (rest.length + 1) false rest with
    | none => wrong "unterminated `s\x27 command" []
    | some (new, rest) =>
      let parts := pieces new
      let start : Substitution := ⟨none, ⟨false, false⟩, parts, 1, false, false, none⟩
      let (s, rest) ← flags start (rest.length + 1) rest
      let r ← expression? isExtended text rest
      let most := parts.foldl (fun most p => match p with
        | .part n => max n most
        | _ => most) 0
      if r.any (·.2 < most) then
        wrong s!"invalid reference \\{most} on `s\x27 command\x27s RHS" rest
      else return ({ s with expression := r.map (·.1) }, rest)

/-- Which byte goes to which, after the letter of the command. -/
def exchange? (bs : Bytes) : Except Defect (Action × Bytes) := do
  let close := bs.headD 0x0A
  match upTo close false (bs.length + 1) false (bs.drop 1) with
  | none => wrong "unterminated `y\x27 command" []
  | some (old, rest) =>
    match upTo close false (rest.length + 1) false rest with
    | none => wrong "unterminated `y\x27 command" []
    | some (new, rest) =>
      let (old, new) := (unescaped old, unescaped new)
      if old.length ≠ new.length then
        wrong "strings for `y\x27 command are different lengths" rest
      else return (.exchange (old.zip new), rest)

/-- The lines of a text, where a backslash hides the end of one, and what comes after them. -/
def textLines : Bytes → Bytes × Bytes
  | [] => ([], [])
  | 0x5C :: [] => ([], [])
  | 0x5C :: b :: bs => ((control? b).getD b :: (textLines bs).1, (textLines bs).2)
  | b :: bs => if b = 0x0A then ([], bs) else (b :: (textLines bs).1, (textLines bs).2)

/-- The text of a command, after its letter. -/
def text? (p : Placing) (bs : Bytes) : Except Defect (Action × Bytes) :=
  let start := unpadded bs
  let body := match start with
    | 0x5C :: more =>
      match unpadded more with
      | 0x0A :: more => more
      | _ => more
    | _ => start
  if start = [] then wrong "expected \\ after `a\x27, `c\x27 or `i\x27" []
  else
    let (text, rest) := textLines body
    .ok (.text p (if body = [] then [] else text ++ [0x0A]), rest)

/-- A name up to the end of its line, after the letter of a command. -/
def named? (f : Bytes → Action) (bs : Bytes) : Except Defect (Action × Bytes) :=
  let name := (unpadded bs).takeWhile (· ≠ 0x0A)
  if name = [] then wrong "missing filename in r/R/w/W commands" bs
  else .ok (f name, (unpadded bs).drop name.length)

/-- A label, after the letter of a command. -/
def labelled (f : Bytes → Action) (bs : Bytes) : Action × Bytes :=
  let name := (unpadded bs).takeWhile fun b => !(bytes "; \t\n\x7d").contains b
  (f name, (unpadded bs).drop name.length)

/-- A number that may stand behind the letter of a command. -/
def counted (f : Option Nat → Action) (bs : Bytes) : Action × Bytes :=
  let (n, rest) := Regex.numeral (unpadded bs)
  (f n, rest)

/-- What a command does, by its letter and what comes after it. -/
def action? (isExtended : Bool) (b : UInt8) (bs : Bytes) : Except Defect (Action × Bytes) :=
  match Char.ofNat b.toNat with
  | '=' => .ok (.number, bs)
  | 'd' => .ok (.delete, bs)
  | 'D' => .ok (.deleteFirst, bs)
  | 'p' => .ok (.print, bs)
  | 'P' => .ok (.printFirst, bs)
  | 'n' => .ok (.next, bs)
  | 'N' => .ok (.append, bs)
  | 'h' => .ok (.hold, bs)
  | 'H' => .ok (.holdMore, bs)
  | 'g' => .ok (.recall, bs)
  | 'G' => .ok (.recallMore, bs)
  | 'x' => .ok (.swap, bs)
  | 'z' => .ok (.clear, bs)
  | 'F' => .ok (.fileName, bs)
  | 'l' => .ok (counted .show bs)
  | 'q' => .ok (counted (fun n => .quit (n.getD 0) false) bs)
  | 'Q' => .ok (counted (fun n => .quit (n.getD 0) true) bs)
  | 'a' => text? .behind bs
  | 'i' => text? .before bs
  | 'c' => text? .instead bs
  | 'r' => named? .readFile bs
  | 'w' => named? (.writeFile · false) bs
  | 'W' => named? (.writeFile · true) bs
  | 'b' => .ok (labelled (.jump .always) bs)
  | 't' => .ok (labelled (.jump .ifReplaced) bs)
  | 'T' => .ok (labelled (.jump .unlessReplaced) bs)
  | 'y' => exchange? bs
  | 's' => (substitution? isExtended bs).map fun (s, rest) => (.substitute s, rest)
  | _ => .error ⟨bytes "unknown command: `" ++ b :: bytes "\x27", some bs.length⟩

/-- Whether a command is for one line only. -/
def Action.isSingle : Action → Bool
  | .quit _ _ => true
  | _ => false

/-- What comes after a command: nothing but the end of it. -/
def ended? (bs : Bytes) : Except Defect Bytes :=
  match unpadded bs with
  | [] => .ok []
  | b :: rest =>
    if b = byte ';' ∨ b = 0x0A then .ok rest
    else if b = byte '}' ∨ b = byte '#' then .ok (b :: rest)
    else wrong "extra characters after command" rest

/-- The commands of a script, at most `n`, behind those that are there. The blocks that are open are
known by their places. -/
def commands? (isExtended : Bool) :
    Nat → Array Command → List Nat → Bytes → Except Defect (Array Command)
  | 0, done, _, _ => .ok done
  | n + 1, done, opened, bs =>
    match bs.dropWhile fun b => b = byte ';' || b = 0x20 || (9 ≤ b && b ≤ 13) with
    | [] => if opened.isEmpty then .ok done else .error ⟨bytes "unmatched `\x7b\x27", none⟩
    | bs => do
      if bs.head? = some (byte '#') then
        commands? isExtended n done opened (bs.dropWhile (· ≠ 0x0A))
      else
        let (sel, rest) ← selection? isExtended bs
        match rest with
        | [] => wrong "missing command" []
        | b :: rest =>
          match Char.ofNat b.toNat with
          | '\x7b' =>
            commands? isExtended n (done.push ⟨sel, .block 0⟩) (done.size :: opened) rest
          | '\x7d' =>
            match opened, sel.first with
            | i :: opened, none =>
              let closed := done.modify i fun c => { c with action := .block done.size }
              commands? isExtended n closed opened (← ended? rest)
            | _, _ => wrong "unexpected `\x7d\x27" rest
          | ':' =>
            let name := (unpadded rest).takeWhile fun b => !(bytes ";\n").contains b
            if sel.first.isSome then wrong ": doesn\x27t want any addresses" rest
            else if name = [] then wrong "\x22:\x22 lacks a label" rest
            else
              commands? isExtended n (done.push ⟨sel, .label name⟩) opened
                ((unpadded rest).drop name.length)
          | _ =>
            let (a, after) ← action? isExtended b rest
            if a.isSingle ∧ sel.bound.isSome then wrong "command only uses one address" rest
            else
              let after ← match a with
                | .text _ _ => pure after
                | _ => ended? after
              commands? isExtended n (done.push ⟨sel, a⟩) opened after

/-- The commands that a text writes down. -/
def ofBytes? (isExtended : Bool) (bs : Bytes) : Except Defect (Array Command) :=
  commands? isExtended (bs.length + 1) #[] [] bs

end Edit

end DownloadTriage
