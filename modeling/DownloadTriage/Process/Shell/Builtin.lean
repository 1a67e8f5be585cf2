import DownloadTriage.Process.Print
import DownloadTriage.Process.Question
import DownloadTriage.Process.Shell.State
import DownloadTriage.Process.Signal
import DownloadTriage.Process.Tool

/-!
# Commands of the shell itself

The commands that a shell does not start a program for, as changes of its state.
-/

namespace DownloadTriage.Shell

open Script

/-- A command of the shell. -/
abbrev Builtin := List Bytes → Shell → Shell

/-- Complain about a command. -/
def reproach (s : Shell) (command : String) (text : Bytes) : Shell :=
  (s.complain (bytes (command ++ ": ") ++ text)).withStatus 2

/-- Complain about a command and end. -/
def refuse (s : Shell) (command : String) (text : Bytes) : Shell :=
  s.fail (bytes (command ++ ": ") ++ text)

/-! ## Going on -/

/-- The number in the first argument. -/
def count? (args : List Bytes) (usual : Nat) : Except Bytes Nat :=
  match args with
  | [] => .ok usual
  | a :: _ =>
    match (number? a).filter (· < 2147483648) with
    | some n => .ok n
    | none => .error (bytes "Illegal number: " ++ a)

/-- Go on in another way, by a count. -/
def turn (command : String) (usual : Shell → Nat) (change : Nat → Shell → Shell) : Builtin :=
  fun args s =>
    match count? args (usual s) with
    | .ok n => change n s
    | .error text => s.refuse command text

/-- End the shell. -/
def exit : Builtin :=
  turn "exit" (·.status) fun n s => { s with status := n % 256, flow := .exit }

/-- Leave a function. -/
def goBack : Builtin := turn "return" (·.status) fun n s => { s with status := n, flow := .back }

/-- Leave loops. -/
def leaveLoops : Builtin := turn "break" (fun _ => 1) fun n s =>
  if n = 0 then s.refuse "break" (bytes "Illegal number: 0")
  else { s with status := 0, flow := if s.loops = 0 then .on else .leave (min n s.loops) }

/-- Go on with the next turn of a loop. -/
def nextTurn : Builtin := turn "continue" (fun _ => 1) fun n s =>
  if n = 0 then s.refuse "continue" (bytes "Illegal number: 0")
  else { s with status := 0, flow := if s.loops = 0 then .on else .again (min n s.loops) }

/-- Drop parameters. -/
def shift : Builtin := turn "shift" (fun _ => 1) fun n s =>
  if s.parameters.length < n then s.refuse "shift" (bytes "can't shift that many")
  else { s with parameters := s.parameters.drop n, status := 0 }

/-! ## Texts -/

/-- Print the arguments. -/
def echo : Builtin := fun args s => (s.print (Print.echo args)).withStatus 0

/-- Print the arguments by a format. -/
def printf : Builtin := fun args s =>
  match args with
  | [] => s.reproach "printf" (bytes "usage: printf format [arg ...]")
  | format :: args =>
    let p := Print.formatted .shell format args.length args
    let broken := p.complaints.any fun text => (bytes ": invalid directive").isSuffixOf text
    let s := (s.print p.output).withStatus
      (if p.complaints.isEmpty then 0 else if broken then 2 else 1)
    p.complaints.foldl (fun s text => s.complain (bytes "printf: " ++ text)) s

/-- Answer a question. -/
def question (command : String) : Builtin := fun args s =>
  match Question.answer s.files args with
  | .ok b => s.withStatus (if b then 0 else 1)
  | .error e => s.reproach command e.message

/-- Answer a question that a bracket closes. -/
def bracket : Builtin := fun args s =>
  if args.getLast? = some (bytes "]") then question "[" args.dropLast s
  else s.reproach "[" (bytes "missing ]")

/-- A line of a stream, whether it had an end, and what comes after it. A backslash joins lines
unless it stands for itself. -/
def readLine (raw : Bool) : Bytes → List Mark × Bool × Bytes
  | [] => ([], false, [])
  | 0x5C :: b :: bs =>
    if raw then
      let (ms, found, rest) := readLine raw (b :: bs)
      (.byte 0x5C false true :: ms, found, rest)
    else
      let (ms, found, rest) := readLine raw bs
      (if b = 0x0A then ms else .byte b true false :: ms, found, rest)
  | b :: bs =>
    if b = 0x0A then ([], true, bs)
    else
      let (ms, found, rest) := readLine raw bs
      (if b = 0 then ms else .byte b false true :: ms, found, rest)

/-- Whether a mark is a separator of a kind. -/
def isSeparator (kind : UInt8 → Bool) (m : Mark) : Bool :=
  match m with
  | .byte b _ splits => splits && kind b
  | _ => false

/-- The values of `n` variables that share a line: each takes a field, the last one all that is
left. -/
def shared (separators : Bytes) : Nat → List Mark → List Bytes
  | 0, _ => []
  | n + 1, ms =>
    let blank := isSeparator fun b => separators.contains b && (bytes " \t\n").contains b
    let any := isSeparator separators.contains
    let ms := ms.dropWhile blank
    if n = 0 then [singleBytes (ms.reverse.dropWhile blank).reverse]
    else
      let rest := (ms.dropWhile (!any ·)).dropWhile blank
      let rest := if rest.head?.any any then (rest.drop 1).dropWhile blank else rest
      singleBytes (ms.takeWhile (!any ·)) :: shared separators n rest

/-- Read a line into variables. -/
def read : Builtin := fun args s =>
  let raw := args.takeWhile fun a => a.head? = some (byte '-') && a ≠ bytes "--"
  let names := args.drop raw.length
  let names := if names.head? = some (bytes "--") then names.drop 1 else names
  match s.streamOf? 0 with
  | none => s.withStatus 1
  | some i =>
    if names.isEmpty then s.reproach "read" (bytes "arg count")
    else
      let (ms, found, rest) :=
        readLine (raw.any (·.contains (byte 'r'))) (s.session.unread i)
      let s := { s with session := s.session.leave i rest }
      let values := shared s.separators names.length ms
      ((names.zip values).foldl (fun s v => s.assign v.1 v.2) s).withStatus (if found then 0 else 1)

/-! ## Directories -/

/-- Go to a directory. -/
def cd : Builtin := fun args s =>
  let args := args.filter fun a => a ≠ bytes "-L" && a ≠ bytes "-P" && a ≠ bytes "--"
  let back := args.head? = some (bytes "-")
  let target := match args with
    | [] => (s.lookUp? (bytes "HOME")).getD []
    | a :: _ => if back then (s.lookUp? (bytes "OLDPWD")).getD [] else a
  if target = [] then s.withStatus 0
  else match s.files.look ⟨target⟩ with
    | .ok (here, .directory) =>
      let before := (Path.ofNames s.files.workingDir).bytes
      let after := (Path.ofNames here).bytes
      let s := s.setFiles { s.files with workingDir := here }
      let s := (s.assign (bytes "OLDPWD") before).assign (bytes "PWD") after
      (if back then s.print (after ++ [0x0A]) else s).withStatus 0
    | _ => s.reproach "cd" (bytes "can't cd to " ++ target)

/-- Print the directory. -/
def pwd : Builtin := fun _ s =>
  (s.print ((Path.ofNames s.files.workingDir).bytes ++ [0x0A])).withStatus 0

/-! ## Variables -/

/-- A name and the value that is given to it. -/
def given (arg : Bytes) : Bytes × Option Bytes :=
  let name := arg.takeWhile (· ≠ byte '=')
  (name, if name.length = arg.length then none else some (arg.drop (name.length + 1)))

/-- Mark variables, and give values to some. -/
def marking (command : String) (mark : Variable → Variable) : Builtin := fun args s =>
  (args.filter (· ≠ bytes "-p")).foldl (fun s a =>
    if s.flow ≠ .on then s
    else
      let (name, value) := given a
      if !isName name then s.refuse command (name ++ bytes ": bad variable name")
      else
        let s := match value with
          | some v => s.assign name v
          | none => s
        if s.flow ≠ .on then s
        else s.putVariable name (some (mark ((s.named.lookup name).getD ⟨none, false, false⟩))))
    (s.withStatus 0)

/-- Forget variables or functions. -/
def unset : Builtin := fun args s =>
  let functions := args.head? = some (bytes "-f")
  let names := if functions ∨ args.head? = some (bytes "-v") then args.drop 1 else args
  names.foldl (fun s n =>
    if functions then { s with functions := s.functions.filter (·.1 ≠ n) }
    else if (s.named.lookup n).any (·.readOnly) then
      s.refuse "unset" (n ++ bytes ": is read only")
    else s.putVariable n none) (s.withStatus 0)

/-- Keep variables as they were for when the function ends. -/
def localise : Builtin := fun args s =>
  match s.scopes with
  | [] => s.refuse "local" (bytes "not in a function")
  | scope :: outer =>
    let names := args.map given
    let scope := (names.map fun n => (n.1, s.named.lookup n.1)) ++ scope
    names.foldl (fun s n => match n.2 with
      | some v => s.assign n.1 v
      | none => s) { s with scopes := scope :: outer, status := 0 }

/-- The letters of options by their names. -/
def flagNames : List (String × Char) :=
  [("errexit", 'e'), ("noglob", 'f'), ("noexec", 'n'), ("nounset", 'u'), ("xtrace", 'x'),
    ("allexport", 'a'), ("noclobber", 'C'), ("verbose", 'v')]

/-- Turn flags on or off. -/
def setFlags (on : Bool) (letters : List Char) (s : Shell) : Shell :=
  let others := s.flags.filter (!letters.contains ·)
  { s with flags := if on then letters ++ others else others }

/-- Set flags by the options in front of arguments, and what comes after them; none if one of them
is unknown. `named` says that a name is due. -/
def takeFlags (s : Shell) : List Bytes → Shell × Except Bytes (Option (List Bytes))
  | [] => (s, .ok none)
  | a :: as =>
    match a with
    | [0x2D, 0x2D] => (s, .ok (some as))
    | [0x2D] => (s, .ok (some as))
    | sign :: b :: bs =>
      if sign ≠ byte '-' ∧ sign ≠ byte '+' then (s, .ok (some (a :: as)))
      else
        let on := sign = byte '-'
        if b = byte 'o' ∧ bs = [] then
          match as with
          | [] => (s, .ok none)
          | name :: as =>
            match flagNames.find? fun f => bytes f.1 = name with
            | some f => takeFlags (setFlags on [f.2] s) as
            | none => (s, .error (bytes "o " ++ name))
        else match (b :: bs).find? fun l => !(bytes "efnuxaCvmbhiIVE").contains l with
          | some l => (s, .error [l])
          | none =>
            takeFlags (setFlags on ((b :: bs).map fun l => Char.ofNat l.toNat) s) as
    | a => (s, .ok (some (a :: as)))

/-- Set flags and parameters. -/
def set : Builtin := fun args s =>
  match takeFlags s args with
  | (s, .ok none) => s.withStatus 0
  | (s, .ok (some parameters)) => { s with parameters, status := 0 }
  | (s, .error text) => s.refuse "set" (bytes "Illegal option -" ++ text)

/-! ## Processes -/

/-- The number of a signal by its name or number. -/
def signal? (bs : Bytes) : Option Nat :=
  match number? bs with
  | some n => if n ≤ Signal.largest then some n else none
  | none =>
    if bs = bytes "EXIT" then some 0
    else (Utf8.decode? bs).bind Signal.ofName?

/-- Send a signal to a process. One that is handled waits for the next command. -/
def send (signal process : Nat) (s : Shell) : Shell :=
  let mine := process = s.self
  let handled := mine && !Signal.isFinal signal && (s.traps.lookup signal).isSome
  if handled then { s with pending := s.pending ++ [signal] }
  else match Signal.effect signal with
    | .nothing => s
    | .stops => { s with session := { s.session with endless := true } }
    | .ends => { s with session := s.session.kill process signal }

/-- Send a signal to the processes that are named. -/
def sendAll (signal : Nat) (targets : List Bytes) (s : Shell) : Shell :=
  targets.foldl (fun s t =>
    match number? t with
    | none => s.reproach "kill" (bytes "Illegal number: " ++ t)
    | some process =>
      if process = s.self ∨ process = s.shown ∨
          (s.jobs.head?.map (·.process)).any (process ≤ ·) ∨ s.jobs.any (·.process = process) then
        send signal process s
      else (s.complain (bytes "kill: No such process\n")).withStatus 1) (s.withStatus 0)

/-- Send signals, or list them. -/
def kill : Builtin := fun args s =>
  let usage := bytes "Usage: kill [-s sigspec | -signum | -sigspec] [pid | job]... or\n" ++
    bytes "kill -l [exitstatus]"
  let sent (signal : Nat) (targets : List Bytes) : Shell :=
    let targets := if targets.head? = some (bytes "--") then targets.drop 1 else targets
    if targets.isEmpty then s.reproach "kill" usage else sendAll signal targets s
  match args with
  | [] => s.reproach "kill" usage
  | a :: as =>
    match a with
    | 0x2D :: name =>
      match signal? name with
      | some n => sent n as
      | none =>
        if name = bytes "s" then
          match as with
          | [] => s.reproach "kill" (bytes "No arg for -s option")
          | n :: as =>
            match signal? n with
            | some n => sent n as
            | none => s.reproach "kill" (bytes "invalid signal number or name: " ++ n)
        else if name = bytes "l" then
          match as with
          | [] => (s.print (Signal.names.flatMap fun n => bytes n ++ [0x0A])).withStatus 0
          | n :: _ =>
            let number := (number? n).getD 0
            let number := if 128 < number then number - 128 else number
            match Signal.name? number with
            | some name => (s.print (bytes name ++ [0x0A])).withStatus 0
            | none => s.reproach "kill" (bytes "invalid signal number or name: " ++ n)
        else if name = bytes "-" then sent 15 as
        else s.reproach "kill" (bytes "Illegal option -" ++ name.take 1)
    | _ => sent 15 args

/-- Wait for processes in the background. -/
def wait : Builtin := fun args s =>
  let ends (j : Job) (s : Shell) : Shell :=
    match s.session.signalOf? j.process with
    | some n => s.writeTo 2 (bytes (Signal.epitaph n) ++ [0x0A])
    | none => { s with session := { s.session with now := max s.session.now j.endsAt } }
  match args with
  | [] => (s.jobs.foldl (fun s j => ends j s) s).withStatus 0
  | args => args.foldl (fun s a =>
      match (number? a).bind fun n => s.jobs.find? (·.process = n) with
      | some j =>
        let killed := s.session.signalOf? j.process
        (ends j s).withStatus ((killed.map (128 + ·)).getD j.status)
      | none => s.withStatus 127) s

/-- A text between apostrophes. -/
def inApostrophes (text : Bytes) : Bytes :=
  byte '\'' :: (text.flatMap fun b => if b = byte '\'' then bytes "'\"'\"'" else [b]) ++ bytes "'"

/-- Say what is done when signals come, or when the shell ends. -/
def trap : Builtin := fun args s =>
  match args.filter (· ≠ bytes "--") with
  | [] =>
    let shown := s.traps.flatMap fun t =>
      let name := if t.1 = 0 then "EXIT" else (Signal.name? t.1).getD (toString t.1)
      bytes "trap -- " ++ inApostrophes t.2 ++ bytes (" " ++ name ++ "\n")
    (s.print shown).withStatus 0
  | action :: signals =>
    let clears := action = bytes "-" || ((number? action).isSome)
    let signals := if (number? action).isSome then args else signals
    signals.foldl (fun s n =>
      match signal? n with
      | none => s.reproach "trap" (n ++ bytes ": bad trap")
      | some n =>
        let others := s.traps.filter (·.1 ≠ n)
        { s with traps := if clears then others else (n, action) :: others }) (s.withStatus 0)

/-! ## All of them -/

/-- The commands after whose mistakes a shell ends. -/
def special : List Bytes :=
  [".", ":", "break", "continue", "eval", "exec", "exit", "export", "readonly", "return", "set",
    "shift", "times", "trap", "unset"].map bytes

/-- The commands by their names. -/
def builtins : List (String × Builtin) :=
  let nothing : Builtin := fun _ s => s.withStatus 0
  [(":", nothing), ("true", nothing), ("false", fun _ s => s.withStatus 1), ("exit", exit),
    ("return", goBack), ("break", leaveLoops), ("continue", nextTurn), ("shift", shift),
    ("echo", echo), ("printf", printf), ("test", question "test"), ("[", bracket),
    ("read", read), ("cd", cd), ("chdir", cd), ("pwd", pwd),
    ("export", marking "export" fun v => { v with exported := true }),
    ("readonly", marking "readonly" fun v => { v with readOnly := true }), ("unset", unset),
    ("local", localise), ("set", set), ("kill", kill), ("wait", wait), ("trap", trap),
    ("hash", nothing), ("jobs", nothing), ("alias", nothing), ("unalias", nothing),
    ("umask", fun args s => (if args.isEmpty then s.print (bytes "0022\n") else s).withStatus 0),
    ("ulimit", fun _ s => (s.print (bytes "unlimited\n")).withStatus 0),
    ("times", fun _ s =>
      (s.print (bytes "0m0.000000s 0m0.000000s\n0m0.000000s 0m0.000000s\n")).withStatus 0)]

/-- The command of a name. -/
def builtin? (name : Bytes) : Option Builtin :=
  (builtins.find? fun b => bytes b.1 = name).map (·.2)

/-- The commands for which more than the state is needed. -/
def evaluating : List Bytes := ["eval", ".", "exec", "command", "type"].map bytes

end DownloadTriage.Shell
