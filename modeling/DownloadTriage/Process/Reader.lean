import DownloadTriage.Process.Script

/-!
# Reading scripts

A script is read command by command, as far as each line of it goes, so that what comes before a
mistake has run by then. Words are read together with the scripts that they hold.
-/

namespace DownloadTriage.Script

/-- Why a script cannot be read on. -/
inductive ScriptError where
  /-- Something else should stand there, perhaps something in particular. -/
  | unexpected (found : String) (expecting : Option String)
  | unterminatedQuote
  | unterminatedBackquote
  | missingBrace
  | missingParentheses
  | badLoopVariable
  | badFunctionName
  /-- Nested deeper than can be followed. -/
  | tooDeep
  deriving DecidableEq, Repr

/-- What is said of a mistake. -/
def ScriptError.message : ScriptError → String
  | unexpected found none => found ++ " unexpected"
  | unexpected found (some e) => found ++ " unexpected (expecting " ++ e ++ ")"
  | unterminatedQuote => "Unterminated quoted string"
  | unterminatedBackquote => "EOF in backquote substitution"
  | missingBrace => "Missing '\x7d'"
  | missingParentheses => "Missing '))'"
  | badLoopVariable => "Bad for loop variable"
  | badFunctionName => "Bad function name"
  | tooDeep => "Nested too deeply"

/-- How an operator attaches a stream; a text that follows may have its leading tabs cut. -/
inductive Attachment where
  | plain (a : Attach)
  | here (cut : Bool)
  deriving DecidableEq, Repr

/-- A token. -/
inductive Token where
  | word (w : Word)
  | attach (descriptor : Nat) (a : Attachment)
  | operator (text : String)
  | lineEnd
  | scriptEnd

/-- A text that is still to come. -/
structure Promise where
  number : Nat
  mark : Bytes
  cut : Bool
  verbatim : Bool

/-- Where the reader is: what is left, the number of the line, a token read ahead, and the texts
promised and found. -/
structure Cursor where
  rest : Bytes
  line : Nat
  ahead : Option Token
  promised : List Promise
  docs : List HereDoc
  made : Nat

/-- Reads from a script. Where a mistake was found is known afterwards. -/
abbrev Reader := ExceptT ScriptError (StateM Cursor)

namespace Reader

/-- What is left. -/
def rest : Reader Bytes := return (← get).rest

/-- Go on after what was read, over that many line ends. -/
def goTo (bs : Bytes) (lines : Nat) : Reader Unit :=
  modify fun c => { c with rest := bs, line := c.line + lines }

/-- The line ends in some bytes. -/
def lineEnds (bs : Bytes) : Nat := bs.count 0x0A

/-- The bytes as long as they are what is asked for. -/
def span (p : UInt8 → Bool) : Reader Bytes := do
  let bs ← rest
  let taken := bs.takeWhile p
  goTo (bs.dropWhile p) (lineEnds taken)
  return taken

/-- Bytes that end a word. -/
def endsWord (b : UInt8) : Bool := (bytes " \t\n;&|<>()").contains b

/-- Bytes that mean something in any word. -/
def isActive (b : UInt8) : Bool := (bytes "'\"\\$`").contains b

/-- Leave out blanks, continued lines and a comment. -/
def skipBlanks : Bytes → Nat → Bytes × Nat
  | 0x5C :: 0x0A :: bs, n => skipBlanks bs (n + 1)
  | b :: bs, n =>
    if b = 0x20 ∨ b = 0x09 then skipBlanks bs n
    else if b = byte '#' then (bs.dropWhile (· ≠ 0x0A), n)
    else (b :: bs, n)
  | [], n => ([], n)

/-- The operators, longer ones first. -/
def operators : List String := ["&&", "||", ";;", ";", "&", "|", "(", ")"]

/-- The operators that attach streams, longer ones first, each with its usual descriptor. -/
def attachments : List (String × Nat × Attachment) :=
  [("<<-", 0, .here true), ("<<", 0, .here false), (">>", 1, .plain .append),
    ("<&", 0, .plain .same), (">&", 1, .plain .same), ("<>", 0, .plain .both),
    (">|", 1, .plain .overwrite), ("<", 0, .plain .read), (">", 1, .plain .write)]

/-- Words that mean something where a command may begin. -/
def reserved : List Bytes :=
  ["if", "then", "else", "elif", "fi", "do", "done", "case", "esac", "while", "until", "for", "in",
    "\x7b", "\x7d", "!"].map bytes

/-- The body of a promised text and what comes after it. -/
def hereBody (p : Promise) (bs : Bytes) : Bytes × Bytes :=
  go (split 0x0A bs)
where
  /-- Lines up to the one that is the mark. -/
  go : List Bytes → Bytes × Bytes
    | [] => ([], [])
    | l :: ls =>
      let shown := if p.cut then l.dropWhile (· = 0x09) else l
      if shown = p.mark then ([], [0x0A].intercalate ls)
      else if ls = [] then (shown, [])
      else
        let (body, after) := go ls
        (shown ++ 0x0A :: body, after)

/-- The text of a script in backquotes, after the first of them, and what comes after the last. -/
def backquoted (quoted : Bool) : Bytes → Option (Bytes × Bytes)
  | [] => none
  | 0x5C :: b :: bs =>
    (backquoted quoted bs).map fun (t, after) =>
      (if (bytes "$`\\").contains b ∨ (quoted ∧ b = byte '"') then (b :: t, after)
      else (0x5C :: b :: t, after))
  | b :: bs =>
    if b = byte '\x60' then some ([], bs)
    else (backquoted quoted bs).map fun (t, after) => (b :: t, after)

/-- The token that was read ahead. -/
def ahead : Reader (Option Token) := return (← get).ahead

/-- Fail because of a token. -/
def refuse {α : Type} (t : Token) (expecting : Option String) : Reader α :=
  let shown := match t with
    | .word w => match Word.plain? w with
      | some bs =>
        if reserved.contains bs then "\"" ++ Utf8.lossy bs ++ "\"" else "word"
      | none => "word"
    | .attach _ _ => "redirection"
    | .operator text => "\"" ++ text ++ "\""
    | .lineEnd => "newline"
    | .scriptEnd => "end of file"
  throw (.unexpected shown expecting)

/-- The word that a token is, where words may be reserved. -/
def keyword? : Token → Option String
  | .word w => (Word.plain? w).bind fun bs =>
    if reserved.contains bs then some (Utf8.lossy bs) else none
  | _ => none

/-- A value given to a name: the name and the start of the value. -/
def assignment? : Word → Option (Bytes × Word)
  | .text bs false :: ps =>
    let name := bs.takeWhile (· ≠ byte '=')
    let value := bs.drop (name.length + 1)
    if isName name ∧ name.length < bs.length then
      some (name, if value = [] then ps else .text value false :: ps)
    else none
  | _ => none

/-- The use of a value that comes after its name; whether an empty value counts as none. -/
def use? : Bytes → Option (Use × Bool × Bytes)
  | 0x3A :: b :: bs => (plainUse? b).map fun u => (u, true, bs)
  | 0x23 :: 0x23 :: bs => some (.cut false true, false, bs)
  | 0x23 :: bs => some (.cut false false, false, bs)
  | 0x25 :: 0x25 :: bs => some (.cut true true, false, bs)
  | 0x25 :: bs => some (.cut true false, false, bs)
  | b :: bs => (plainUse? b).map fun u => (u, false, bs)
  | [] => none
where
  /-- The use that one byte says. -/
  plainUse? (b : UInt8) : Option Use :=
    [(byte '-', Use.orElse), (byte '=', .assign), (byte '?', .require),
      (byte '+', .instead)].lookup b

/-- The name at the start of a parameter in braces, and what comes after it. -/
def bracedName (bs : Bytes) : Bytes × Bytes :=
  match bs with
  | [] => ([], [])
  | b :: rest =>
    if isDigit b then (bs.takeWhile isDigit, bs.dropWhile isDigit)
    else if isNameStart b then (bs.takeWhile isNameByte, bs.dropWhile isNameByte)
    else if isSpecialName b then ([b], rest)
    else ([], bs)

mutual

/-- The parts of a word up to where `stop` says; `quoted` is its state, and `braced` that a closing
brace ends it. -/
def parts (fuel : Nat) (quoted braced : Bool) (acc : List Part) : Reader (List Part) :=
  match fuel with
  | 0 => throw .tooDeep
  | fuel + 1 => do
    match ← rest with
    | [] => return acc.reverse
    | b :: bs =>
      if braced ∧ b = byte '\x7d' then return acc.reverse
      else if !quoted ∧ !braced ∧ endsWord b then return acc.reverse
      else if b = byte '\'' ∧ !quoted then
        let text := bs.takeWhile (· ≠ byte '\'')
        if text.length = bs.length then throw .unterminatedQuote
        goTo (bs.drop (text.length + 1)) (lineEnds text)
        parts fuel quoted braced (.text text true :: acc)
      else if b = byte '"' then
        if quoted ∧ !braced then return acc.reverse
        else if quoted then
          goTo bs 0
          parts fuel quoted braced acc
        else
          goTo bs 0
          let inner ← parts fuel true false []
          match ← rest with
          | _ :: after => goTo after 0
          | [] => throw .unterminatedQuote
          let inner := if inner.isEmpty then [.text [] true] else inner
          parts fuel quoted braced (inner.reverse ++ acc)
      else if b = byte '\\' then
        match bs with
        | [] =>
          goTo [] 0
          parts fuel quoted braced (.text [b] quoted :: acc)
        | c :: after =>
          goTo after (if c = 0x0A then 1 else 0)
          if c = 0x0A then parts fuel quoted braced acc
          else if !quoted ∨ (bytes "$`\"\\").contains c ∨ (braced ∧ c = byte '\x7d') then
            parts fuel quoted braced (.text [c] true :: acc)
          else parts fuel quoted braced (.text [b, c] true :: acc)
      else if b = byte '$' then
        goTo bs 0
        let p ← dollar fuel quoted
        parts fuel quoted braced (p :: acc)
      else if b = byte '\x60' then
        match backquoted quoted bs with
        | none => throw .unterminatedBackquote
        | some (text, after) =>
          let p ← inner fuel text (script fuel)
          goTo after (lineEnds bs - lineEnds after)
          parts fuel quoted braced (.printed p quoted :: acc)
      else
        let text ← span fun c => !isActive c && !(braced && c == byte '\x7d') &&
          !(!quoted && !braced && endsWord c)
        let text := if text.isEmpty then [b] else text
        if text = [b] ∧ (← rest).length = bs.length + 1 then goTo bs 0
        parts fuel quoted braced (.text text quoted :: acc)

/-- What is put in after a dollar sign. -/
def dollar (fuel : Nat) (quoted : Bool) : Reader Part :=
  match fuel with
  | 0 => throw .tooDeep
  | fuel + 1 => do
    match ← rest with
    | 0x28 :: 0x28 :: bs =>
      goTo bs 0
      let expression ← arithmetic fuel 0 []
      return .number expression quoted
    | 0x28 :: bs =>
      goTo bs 0
      let c ← list fuel
      expectOperator fuel ")"
      return .printed c quoted
    | 0x7B :: bs =>
      goTo bs 0
      braced fuel quoted
    | b :: bs =>
      if isNameStart b then return .parameter (← span isNameByte) .value false [] quoted
      else if isSpecialName b ∨ isDigit b then
        goTo bs 0
        return .parameter [b] .value false [] quoted
      else return .text [byte '$'] quoted
    | [] => return .text [byte '$'] quoted

/-- A parameter in braces, after the first of them. -/
def braced (fuel : Nat) (quoted : Bool) : Reader Part :=
  match fuel with
  | 0 => throw .tooDeep
  | fuel + 1 => do
    let bs ← rest
    let counted := bracedName (bs.drop 1)
    if bs.head? = some (byte '#') ∧ counted.1 ≠ [] ∧ counted.2.head? = some (byte '\x7d') then
      goTo (counted.2.drop 1) 0
      return .parameter counted.1 .length false [] quoted
    let (name, after) := bracedName bs
    if name ≠ [] ∧ after.head? = some (byte '\x7d') then
      goTo (after.drop 1) 0
      return .parameter name .value false [] quoted
    let (use, strict, after) := if name = [] then (.broken, false, after)
      else (use? after).getD (.broken, false, after)
    goTo after 0
    let cuts := match use with
      | .cut _ _ => true
      | _ => false
    let word ← parts fuel (quoted && !cuts) true []
    match ← rest with
    | _ :: after =>
      goTo after 0
      return .parameter name use strict word quoted
    | [] => throw (if quoted then .unterminatedQuote else .missingBrace)

/-- An expression up to the two parentheses that end it. -/
def arithmetic (fuel : Nat) (depth : Nat) (acc : List Part) : Reader (List Part) :=
  match fuel with
  | 0 => throw .tooDeep
  | fuel + 1 => do
    match ← rest with
    | [] => throw .missingParentheses
    | 0x29 :: bs =>
      if depth = 0 then
        match bs with
        | 0x29 :: after =>
          goTo after 0
          return acc.reverse
        | _ => throw .missingParentheses
      else
        goTo bs 0
        arithmetic fuel (depth - 1) (.text [0x29] true :: acc)
    | 0x28 :: bs =>
      goTo bs 0
      arithmetic fuel (depth + 1) (.text [0x28] true :: acc)
    | 0x24 :: bs =>
      goTo bs 0
      let p ← dollar fuel true
      arithmetic fuel depth (p :: acc)
    | b :: bs =>
      goTo bs (if b = 0x0A then 1 else 0)
      arithmetic fuel depth (if b = byte '"' then acc else .text [b] true :: acc)

/-- Read another text, and then go on here. -/
def inner {α : Type} (fuel : Nat) (text : Bytes) (r : Reader α) : Reader α :=
  match fuel with
  | 0 => throw .tooDeep
  | _ + 1 => do
    let c ← get
    set { c with rest := text, ahead := none, promised := [] }
    let a ← r
    modify fun d => { c with docs := d.docs, made := d.made }
    return a

/-- The texts that were promised, after the end of a line. -/
def fulfil (fuel : Nat) : List Promise → Reader Unit
  | [] => return ()
  | p :: ps =>
    match fuel with
    | 0 => throw .tooDeep
    | fuel + 1 => do
      let bs ← rest
      let (body, after) := hereBody p bs
      goTo after (lineEnds bs - lineEnds after)
      let word ← if p.verbatim then pure [.text body true]
        else inner fuel body (hereParts fuel [])
      modify fun c => { c with docs := ⟨p.number, word⟩ :: c.docs }
      fulfil fuel ps

/-- All texts that were promised. -/
def fulfilAll (fuel : Nat) : Reader Unit :=
  match fuel with
  | 0 => throw .tooDeep
  | fuel + 1 => do
    let promised := (← get).promised
    modify fun c => { c with promised := [] }
    fulfil fuel promised

/-- The parts of a text that follows in a script. -/
def hereParts (fuel : Nat) (acc : List Part) : Reader (List Part) :=
  match fuel with
  | 0 => throw .tooDeep
  | fuel + 1 => do
    let text ← span fun b => !(bytes "$`\\").contains b
    let acc : List Part := if text.isEmpty then acc else .text text true :: acc
    match ← rest with
    | [] => return acc.reverse
    | 0x24 :: bs =>
      goTo bs 0
      let p ← dollar fuel true
      hereParts fuel (p :: acc)
    | 0x5C :: b :: bs =>
      goTo bs 0
      if b = 0x0A then hereParts fuel acc
      else if (bytes "$`\\").contains b then hereParts fuel (.text [b] true :: acc)
      else hereParts fuel (.text [0x5C, b] true :: acc)
    | 0x60 :: bs =>
      match backquoted false bs with
      | none => throw .unterminatedBackquote
      | some (text, after) =>
        let p ← inner fuel text (script fuel)
        goTo after 0
        hereParts fuel (.printed p true :: acc)
    | b :: bs =>
      goTo bs 0
      hereParts fuel (.text [b] true :: acc)

/-- Read a token. -/
def fresh (fuel : Nat) : Reader Token :=
  match fuel with
  | 0 => throw .tooDeep
  | fuel + 1 => do
    let (bs, lines) := skipBlanks (← rest) 0
    goTo bs lines
    match bs with
    | [] =>
      fulfilAll fuel
      return .scriptEnd
    | 0x0A :: after =>
      goTo after 1
      fulfilAll fuel
      return .lineEnd
    | _ =>
      match operators.find? fun o => (bytes o).isPrefixOf bs with
      | some o =>
        goTo (bs.drop o.length) 0
        return .operator o
      | none =>
        let digits := bs.takeWhile isDigit
        let after := bs.drop digits.length
        match attachments.find? fun a => (bytes a.1).isPrefixOf after with
        | some (o, usual, a) =>
          goTo (after.drop o.length) 0
          return .attach ((number? digits).getD usual) a
        | none => return .word (← parts fuel false false [])

/-- Read a token, or take the one that was read ahead. -/
def token (fuel : Nat) : Reader Token :=
  match fuel with
  | 0 => throw .tooDeep
  | fuel + 1 => do
    match ← ahead with
    | some t =>
      modify fun c => { c with ahead := none }
      return t
    | none => fresh fuel

/-- Read a token ahead. -/
def peek (fuel : Nat) : Reader Token :=
  match fuel with
  | 0 => throw .tooDeep
  | fuel + 1 => do
    let t ← token fuel
    modify fun c => { c with ahead := some t }
    return t

/-- Read an operator that must stand here. -/
def expectOperator (fuel : Nat) (o : String) : Reader Unit :=
  match fuel with
  | 0 => throw .tooDeep
  | fuel + 1 => do
    match ← token fuel with
    | .operator p => if p = o then return () else refuse (.operator p) (some ("\"" ++ o ++ "\""))
    | t => refuse t (some ("\"" ++ o ++ "\""))

/-- Read a reserved word that must stand here. -/
def expectKeyword (fuel : Nat) (k : String) : Reader Unit :=
  match fuel with
  | 0 => throw .tooDeep
  | fuel + 1 => do
    skipLines fuel
    let t ← token fuel
    if keyword? t = some k then return () else refuse t (some ("\"" ++ k ++ "\""))

/-- Leave out the ends of lines. -/
def skipLines (fuel : Nat) : Reader Unit :=
  match fuel with
  | 0 => throw .tooDeep
  | fuel + 1 => do
    match ← peek fuel with
    | .lineEnd =>
      let _ ← token fuel
      skipLines fuel
    | _ => return ()

/-- Commands in a construct, at least one where the script goes on. -/
def list (fuel : Nat) : Reader Command :=
  match fuel with
  | 0 => throw .tooDeep
  | fuel + 1 => do
    skipLines fuel
    match ← peek fuel with
    | .scriptEnd => return .nothing
    | _ =>
      let first ← andOr fuel
      more fuel first false

/-- What follows commands, on the same line if `oneLine`. -/
def more (fuel : Nat) (before : Command) (oneLine : Bool) : Reader Command :=
  match fuel with
  | 0 => throw .tooDeep
  | fuel + 1 => do
    let t ← peek fuel
    let after : Option Command := match t with
      | .operator ";" => some before
      | .lineEnd => if oneLine then none else some before
      | .operator "&" =>
        some (match before with
          | .joined first .always last => .joined first .always (.background last)
          | c => .background c)
      | _ => none
    match after with
    | none => return before
    | some before =>
      let _ ← token fuel
      if !oneLine then skipLines fuel
      let t ← peek fuel
      let ends := match t with
        | .scriptEnd => true
        | .operator o => o = ")" || o = ";;"
        | .lineEnd => true
        | t => match keyword? t with
          | some k => ["then", "else", "elif", "fi", "do", "done", "esac", "\x7d"].contains k
          | none => false
      if ends then return before
      else
        let next ← andOr fuel
        more fuel (.joined before .always next) oneLine

/-- Commands of which each hangs on how the one before ended. -/
def andOr (fuel : Nat) : Reader Command :=
  match fuel with
  | 0 => throw .tooDeep
  | fuel + 1 => do
    let first ← pipeline fuel
    andOrMore fuel first

/-- The commands after the first. -/
def andOrMore (fuel : Nat) (before : Command) : Reader Command :=
  match fuel with
  | 0 => throw .tooDeep
  | fuel + 1 => do
    let connector : Option Connector := match ← peek fuel with
      | .operator "&&" => some .ifOk
      | .operator "||" => some .ifFailed
      | _ => none
    match connector with
    | none => return before
    | some c =>
      let _ ← token fuel
      skipLines fuel
      let next ← pipeline fuel
      andOrMore fuel (.joined before c next)

/-- Commands with pipes between them. -/
def pipeline (fuel : Nat) : Reader Command :=
  match fuel with
  | 0 => throw .tooDeep
  | fuel + 1 => do
    if keyword? (← peek fuel) = some "!" then
      let _ ← token fuel
      let c ← pipeline fuel
      return .negated c
    else
      let first ← command fuel
      let others ← pipes fuel
      return if others.isEmpty then first else .pipeline (first :: others)

/-- The commands after pipes. -/
def pipes (fuel : Nat) : Reader (List Command) :=
  match fuel with
  | 0 => throw .tooDeep
  | fuel + 1 => do
    match ← peek fuel with
    | .operator "|" =>
      let _ ← token fuel
      skipLines fuel
      let c ← command fuel
      let others ← pipes fuel
      return c :: others
    | _ => return []

/-- A command with what is attached to it. -/
def command (fuel : Nat) : Reader Command :=
  match fuel with
  | 0 => throw .tooDeep
  | fuel + 1 => do
    let t ← peek fuel
    let line := (← get).line
    match t with
    | .operator "(" =>
      let _ ← token fuel
      let c ← list fuel
      expectOperator fuel ")"
      attached fuel (.subshell c) line
    | .operator _ => refuse t none
    | .lineEnd => refuse t none
    | .scriptEnd => refuse t none
    | t =>
      match keyword? t with
      | none => simple fuel [] [] [] line
      | some k =>
        let _ ← token fuel
        let c ← construct fuel k line
        attached fuel c line

/-- The construct that a reserved word begins. -/
def construct (fuel : Nat) (k : String) (line : Nat) : Reader Command :=
  match fuel with
  | 0 => throw .tooDeep
  | fuel + 1 => do
    match k with
    | "\x7b" =>
      let c ← list fuel
      expectKeyword fuel "\x7d"
      return .redirected c [] line
    | "if" => choice fuel
    | "while" => loop fuel false
    | "until" => loop fuel true
    | "for" => each fuel line
    | "case" =>
      let t ← token fuel
      match t with
      | .word w =>
        expectKeyword fuel "in"
        let bs ← branches fuel
        return .select w bs line
      | t => refuse t (some "word")
    | k => refuse (.word [.text (bytes k) false]) none

/-- A choice after its first word. -/
def choice (fuel : Nat) : Reader Command :=
  match fuel with
  | 0 => throw .tooDeep
  | fuel + 1 => do
    let question ← list fuel
    expectKeyword fuel "then"
    let yes ← list fuel
    let t ← token fuel
    match keyword? t with
    | some "elif" =>
      let no ← choice fuel
      return .choice question yes no
    | some "else" =>
      let no ← list fuel
      expectKeyword fuel "fi"
      return .choice question yes no
    | some "fi" => return .choice question yes .nothing
    | _ => refuse t (some "\"fi\"")

/-- A loop after its first word. -/
def loop (fuel : Nat) (stop : Bool) : Reader Command :=
  match fuel with
  | 0 => throw .tooDeep
  | fuel + 1 => do
    let question ← list fuel
    expectKeyword fuel "do"
    let body ← list fuel
    expectKeyword fuel "done"
    return .loop stop question body

/-- A loop through words after its first word. Without words it goes through the parameters. -/
def each (fuel : Nat) (line : Nat) : Reader Command :=
  match fuel with
  | 0 => throw .tooDeep
  | fuel + 1 => do
    let name ← match ← token fuel with
      | .word w => match Word.plain? w with
        | some bs => if isName bs then pure bs else throw .badLoopVariable
        | none => throw .badLoopVariable
      | _ => throw .badLoopVariable
    skipLines fuel
    let t ← peek fuel
    let words : List Word ←
      if keyword? t = some "in" then do
        let _ ← token fuel
        wordsToEnd fuel
      else
        match t with
        | .operator ";" => do
          let _ ← token fuel
          pure [[.parameter (bytes "@") .value false [] true]]
        | _ => pure [[.parameter (bytes "@") .value false [] true]]
    expectKeyword fuel "do"
    let body ← list fuel
    expectKeyword fuel "done"
    return .each name words body line

/-- Words up to the end of a line or a semicolon. -/
def wordsToEnd (fuel : Nat) : Reader (List Word) :=
  match fuel with
  | 0 => throw .tooDeep
  | fuel + 1 => do
    match ← token fuel with
    | .word w =>
      let ws ← wordsToEnd fuel
      return w :: ws
    | .operator ";" => return []
    | .lineEnd => return []
    | t => refuse t none

/-- The branches of a selection. -/
def branches (fuel : Nat) : Reader (List (List Word × Command)) :=
  match fuel with
  | 0 => throw .tooDeep
  | fuel + 1 => do
    skipLines fuel
    let t ← token fuel
    if keyword? t = some "esac" then return []
    else
      let t ← match t with
        | .operator "(" => token fuel
        | t => pure t
      let patterns ← patterns fuel t
      skipLines fuel
      let empty ← match ← peek fuel with
        | .operator ";;" => pure true
        | t => pure (keyword? t = some "esac")
      let body ← if empty then pure .nothing else list fuel
      match ← peek fuel with
      | .operator ";;" =>
        let _ ← token fuel
        let others ← branches fuel
        return (patterns, body) :: others
      | t =>
        if keyword? t = some "esac" then
          let _ ← token fuel
          return [(patterns, body)]
        else refuse t (some "\";;\"")

/-- The patterns of a branch, from the first on, which is missed only once what follows it is
wrong. -/
def patterns (fuel : Nat) (t : Token) : Reader (List Word) :=
  match fuel with
  | 0 => throw .tooDeep
  | fuel + 1 => do
    let w : Word := match t with
      | .word w => w
      | _ => []
    match ← token fuel with
    | .operator "|" =>
      let next ← token fuel
      let ws ← patterns fuel next
      return w :: ws
    | .operator ")" => return [w]
    | .word _ => refuse (.word []) (some "\")\"")
    | t => refuse t (some "\")\"")

/-- The stream that a token attaches. -/
def attachment (fuel : Nat) (descriptor : Nat) (a : Attachment) : Reader Redirect :=
  match fuel with
  | 0 => throw .tooDeep
  | fuel + 1 => do
    match ← token fuel with
    | .word w =>
      match a with
      | .here cut =>
        let number := (← get).made
        modify fun c =>
          { c with
            made := number + 1
            promised := c.promised ++ [⟨number, Word.bare w, cut, Word.isQuoted w⟩] }
        return .mk descriptor (.here number) []
      | .plain k => return .mk descriptor k w
    | t => refuse t none

/-- What is attached to a construct. -/
def attached (fuel : Nat) (c : Command) (line : Nat) : Reader Command :=
  match fuel with
  | 0 => throw .tooDeep
  | fuel + 1 => do
    let rs ← redirects fuel
    return if rs.isEmpty then c else .redirected c rs line

/-- The streams that are attached one after the other. -/
def redirects (fuel : Nat) : Reader (List Redirect) :=
  match fuel with
  | 0 => throw .tooDeep
  | fuel + 1 => do
    match ← peek fuel with
    | .attach d a =>
      let _ ← token fuel
      let r ← attachment fuel d a
      let rs ← redirects fuel
      return r :: rs
    | _ => return []

/-- A command of words. -/
def simple (fuel : Nat) (assignments : List (Bytes × Word)) (words : List Word)
    (rs : List Redirect) (line : Nat) : Reader Command :=
  match fuel with
  | 0 => throw .tooDeep
  | fuel + 1 => do
    match ← peek fuel with
    | .word w =>
      let _ ← token fuel
      match words, assignment? w with
      | [], some a => simple fuel (assignments ++ [a]) words rs line
      | _, _ => simple fuel assignments (words ++ [w]) rs line
    | .attach d a =>
      let _ ← token fuel
      let r ← attachment fuel d a
      simple fuel assignments words (rs ++ [r]) line
    | .operator "(" =>
      match assignments, words, rs with
      | [], [w], [] =>
        let _ ← token fuel
        expectOperator fuel ")"
        match Word.plain? w with
        | some name =>
          if isName name then
            skipLines fuel
            let body ← command fuel
            return .define name body
          else throw .badFunctionName
        | none => throw .badFunctionName
      | _, _, _ => refuse (.operator "(") none
    | _ => return .simple assignments words rs line

/-- A whole text of commands. -/
def script (fuel : Nat) : Reader Command :=
  match fuel with
  | 0 => throw .tooDeep
  | fuel + 1 => do
    skipLines fuel
    match ← peek fuel with
    | .scriptEnd => return .nothing
    | _ =>
      let c ← list fuel
      match ← token fuel with
      | .scriptEnd => return c
      | t => refuse t none

/-- The commands of the next line with any, and none at the end. -/
def line (fuel : Nat) : Reader (Option Command) :=
  match fuel with
  | 0 => throw .tooDeep
  | fuel + 1 => do
    skipLines fuel
    match ← peek fuel with
    | .scriptEnd => return none
    | _ =>
      let first ← andOr fuel
      let c ← more fuel first true
      match ← token fuel with
      | .lineEnd => return some c
      | .scriptEnd => return some c
      | t => refuse t none

end

end Reader

namespace Cursor

/-- At the start of a script. -/
def ofScript (text : Bytes) : Cursor := ⟨text, 1, none, [], [], 0⟩

/-- How deep a text can be nested. Each level takes at least one of its bytes and a few steps. -/
def depth (text : Bytes) : Nat := 24 * text.length + 64

/-- Read the commands of the next line. -/
def next (c : Cursor) : Except ScriptError (Option Command) × Cursor :=
  (Reader.line (depth c.rest)).run.run c

end Cursor

end DownloadTriage.Script
