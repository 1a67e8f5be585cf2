import DownloadTriage.Process.Arithmetic
import DownloadTriage.Process.Shell.Builtin

/-!
# Running scripts

What the commands of a script do to a shell. Commands that wait take time on the clock of the
session; everything else takes none. What takes too many steps counts as endless.
-/

namespace DownloadTriage.Shell

open Script

/-! ## Programs -/

/-- The directories in which programs are found. -/
def programDirectories : List Bytes :=
  ["/usr/local/sbin/", "/usr/local/bin/", "/usr/sbin/", "/usr/bin/", "/sbin/", "/bin/"].map bytes

/-- The name of a program that is installed. -/
def installedName (program : Bytes) : Bytes :=
  match programDirectories.find? (·.isPrefixOf program) with
  | some dir => program.drop dir.length
  | none => program

/-- The programs that are shells. -/
def shells : List Bytes := ["sh", "dash", "bash"].map bytes

/-- The programs that run others, or change what a program is. -/
def runners : List Bytes :=
  ["env", "timeout", "nice", "nohup", "setsid", "xargs", "chmod"].map bytes

/-- Whether a program is installed. -/
def isInstalled (program : Bytes) : Bool :=
  let name := installedName program
  shells.contains name || runners.contains name || (Tool.ofName? name).isSome

/-- A program that can be started. -/
inductive Program where
  | shell
  | runner (name : Bytes)
  | tool (t : Tool)
  /-- A script that was made a program. -/
  | script

/-- The program of a name, or why it cannot be started. -/
def program? (s : Session) (name : Bytes) : Except (Option FileError) Program :=
  let base := installedName name
  if shells.contains base then .ok .shell
  else if runners.contains base then .ok (.runner base)
  else match Tool.ofName? base with
    | some t => .ok (.tool t)
    | none =>
      if name.contains Path.separator then
        match s.files.look ⟨name⟩ with
        | .ok (here, _) => if s.programs.contains here then .ok .script else .error none
        | .error e => .error (some e)
      else if name = bytes "." ∨ name = bytes ".." then .error none
      else .error (some .notFound)

/-- A session after the work of a tool that was given the input of a stream. -/
def settle (input : Option Nat) (given : Bytes) (w : Work) (session : Session) : Session :=
  let session := { session with files := w.files }
  let session := match input with
    | some i => if w.input.length = given.length then session else session.leave i w.input
    | none => session
  session.wait w.durationMs

/-- Write pieces where they go. -/
def writePieces (pieces : List (Outlet × Bytes)) (s : Shell) : Shell :=
  pieces.foldl (fun s p => match p.1 with
    | .output => s.writeTo 1 p.2
    | .errors => s.writeTo 2 p.2) s

/-- What is left to read of the input. -/
def input (s : Shell) : Bytes := ((s.streamOf? 0).map s.session.unread).getD []

/-- The work of a tool on the files and the input of a shell. -/
def workOf (t : Tool) (name : Bytes) (args : List Bytes) (s : Shell) : Work :=
  let size := (s.streamOf? 0).bind fun i => match s.session.stream i with
    | .file here _ _ => some (s.session.content here).length
    | _ => none
  ((t ⟨name, args, s.environment, size⟩).run ⟨s.files, s.input, [], 0, some 0⟩).2

/-- Run a tool on the streams of a shell. -/
def runTool (t : Tool) (name : Bytes) (args : List Bytes) (s : Shell) : Shell :=
  let w := workOf t name args s
  let settled := { s with session := settle (s.streamOf? 0) s.input w s.session }
  (writePieces w.pieces.reverse settled).withStatus w.status

/-- What is said of a command that cannot be started. -/
def missing (name : Bytes) (why : Option FileError) (s : Shell) : Shell :=
  match why with
  | none => (s.complain (name ++ bytes ": Permission denied")).withStatus 126
  | some .notFound => (s.complain (name ++ bytes ": not found")).withStatus 127
  | some .notDirectory => (s.complain (name ++ bytes ": not found")).withStatus 127
  | some e => (s.complain (name ++ bytes ": " ++ Tool.refusal e)).withStatus 126

/-- What a program that runs others says of one that cannot be started. -/
def cannotRun (runner name : Bytes) (why : Option FileError) (s : Shell) : Shell :=
  let text := match why with
    | none => bytes "Permission denied"
    | some e => Tool.refusal e
  let shown := if runner = bytes "timeout" ∨ runner = bytes "nohup" then
      bytes "failed to run command " ++ Quoted.always name
    else if runner = bytes "env" ∨ runner = bytes "nice" then Quoted.always name
    else name
  (s.writeTo 2 (runner ++ bytes ": " ++ shown ++ bytes ": " ++ text ++ [0x0A])).withStatus
    (if why.isNone then 126 else 127)

/-- Change whether files are programs. -/
def chmod (args : List Bytes) (s : Shell) : Shell :=
  match args with
  | mode :: names =>
    let on := mode.contains (byte 'x') || mode.any fun b => b % 2 = 1 && isDigit b
    names.foldl (fun s n =>
      match s.files.look ⟨n⟩ with
      | .ok (here, _) =>
        let others := s.session.programs.filter (· ≠ here)
        let programs := if on ∧ mode.head? ≠ some (byte '-') then here :: others else others
        { s with session := { s.session with programs } }
      | .error e =>
        (s.writeTo 2 (bytes "chmod: cannot access " ++ Quoted.always n ++ bytes ": " ++
          Tool.refusal e ++ [0x0A])).withStatus 1) (s.withStatus 0)
  | [] => (s.writeTo 2 (bytes "chmod: missing operand\n")).withStatus 1

/-- What becomes of a shell when a process that it waited for has ended: a signal counts as a
status, and is told of. -/
def heed (process : Nat) (s : Shell) : Shell :=
  match s.session.signalOf? process with
  | none => s
  | some n =>
    (if n = 2 ∨ n = 13 then s else s.writeTo 2 (bytes (Signal.epitaph n) ++ [0x0A])).withStatus
      (128 + n)

/-! ## Redirections -/

/-- The words for a file that cannot be opened or made. -/
def openRefusal (made : Bool) (name : Bytes) (e : FileError) : Bytes :=
  let verb := if made then "cannot create " else "cannot open "
  let why := match e with
    | .notFound => bytes (if made then "Directory nonexistent" else "No such file")
    | .notDirectory => bytes (if made then "Directory nonexistent" else "No such file")
    | e => Tool.refusal e
  bytes verb ++ name ++ bytes ": " ++ why

/-- The stream behind the name of a descriptor or of nothing. -/
def deviceStream? (s : Shell) (name : Bytes) : Option (Option Nat × Shell) :=
  let known : List (String × Nat) :=
    [("/dev/stdin", 0), ("/dev/stdout", 1), ("/dev/stderr", 2), ("/dev/fd/0", 0),
      ("/dev/fd/1", 1), ("/dev/fd/2", 2)]
  if name = bytes "/dev/null" then
    let (i, session) := s.session.add .nowhere
    some (some i, { s with session })
  else (known.find? fun k => bytes k.1 = name).map fun k => (s.streamOf? k.2, s)

/-- Open a file in a way, and let a descriptor lead to it. -/
def openAt (s : Shell) (descriptor : Nat) (a : Attach) (name : Bytes) : Except Bytes Shell :=
  match deviceStream? s name with
  | some (i, s) => .ok (s.attach descriptor i)
  | none =>
    let attached (s : Shell) (x : Stream) : Shell :=
      let (i, session) := s.session.add x
      { s with session }.attach descriptor (some i)
    let made (truncate append : Bool) : Except Bytes Shell :=
      let old := if truncate then #[] else (s.files.read ⟨name⟩).toOption.getD #[]
      match s.files.write ⟨name⟩ old with
      | .error e => .error (openRefusal true name e)
      | .ok files =>
        match files.look ⟨name⟩ with
        | .ok (here, .file _) => .ok (attached (s.setFiles files) (.file here 0 append))
        | _ => .ok (attached s .nowhere)
    match a with
    | .write =>
      if s.flags.contains 'C' ∧ s.files.exists? ⟨name⟩ then
        .error (bytes "cannot create " ++ name ++ bytes ": File exists")
      else made true false
    | .overwrite => made true false
    | .append => made false true
    | .both => made false false
    | _ =>
      match s.files.look ⟨name⟩ with
      | .error e => .error (openRefusal false name e)
      | .ok (here, .file _) => .ok (attached s (.file here 0 false))
      | .ok _ => .ok (attached s .nowhere)

/-- Let a descriptor lead where another leads, or nowhere. -/
def sameAs (s : Shell) (descriptor : Nat) (target : Bytes) : Except Bytes Shell :=
  if target = bytes "-" then .ok (s.attach descriptor none)
  else match number? target with
    | none => .error (bytes "Syntax error: Bad fd number")
    | some n =>
      match s.streamOf? n with
      | some i => .ok (s.attach descriptor (some i))
      | none => .error (decimal n ++ bytes ": Bad file descriptor")

/-- Whether a command in the background keeps the output open once its own redirections are made. -/
def keepsOpen (s : Shell) (c : Command) : Bool :=
  let open_ := (s.descriptors.filter fun d => d.2 = 1 || d.2 = 2).map (·.1)
  match c with
  | .simple _ _ rs _ =>
    !(rs.foldl (fun (open_ : List Nat) r => match r with
      | .mk d a target =>
        let others := open_.filter (· ≠ d)
        match a with
        | .same =>
          if ((number? (Word.bare target)).any open_.contains) then d :: others else others
        | _ => others) open_).isEmpty
  | _ => !open_.isEmpty

/-! ## Evaluation -/

/-- A description of what was asked for and is not there. -/
def requirement (name text : Bytes) (strict : Bool) : Bytes :=
  name ++ bytes ": " ++ if text ≠ [] then text
    else bytes (if strict then "parameter not set or null" else "parameter not set")

/-- All parameters as marks, each in a field of its own. -/
def parameterMarks (quoted : Bool) : List Bytes → List Mark
  | [] => []
  | [p] => (if quoted then [.present] else []) ++ marks quoted (!quoted) p
  | p :: ps =>
    (if quoted then [.present] else []) ++ marks quoted (!quoted) p ++ .apart ::
      parameterMarks quoted ps

/-- The value of a parameter as marks. -/
def valueMarks (s : Shell) (name value : Bytes) (quoted : Bool) : List Mark :=
  if name = bytes "@" ∨ (name = bytes "*" ∧ !quoted) then parameterMarks quoted s.parameters
  else (if quoted then [.present] else []) ++ marks quoted (!quoted) value

/-- A value of all parameters together, or of one. -/
def parameterValue (s : Shell) (name : Bytes) : Option Bytes :=
  if name = bytes "@" then
    if s.parameters.isEmpty then none else some ([0x20].intercalate s.parameters)
  else if name = bytes "*" then
    if s.parameters.isEmpty then none
    else some ((s.separators.take 1).intercalate s.parameters)
  else s.parameter? name

/-- Marks of literal text that may separate fields because they stand for a value. -/
def splitting (ms : List Mark) : List Mark :=
  ms.map fun m => match m with
    | .byte b false _ => .byte b false true
    | m => m

/-- The bytes without the ends of lines after them. -/
def trimmedEnd (bs : Bytes) : Bytes := (bs.reverse.dropWhile (· = 0x0A)).reverse

/-- End because of a failure that nobody looks at. -/
def minding (s : Shell) : Shell :=
  if s.status ≠ 0 ∧ s.flags.contains 'e' ∧ !s.tested ∧ s.goesOn then { s with flow := .exit } else s

/-- The shell of a child, and its number. -/
def child (s : Shell) : Nat × Shell :=
  let (process, session) := s.session.fork
  (process,
    { s with session, self := process, traps := [], pending := [], jobs := [], last := true })

/-- A shell after its child: what they share stays as the child left it. Of the child's status a byte
is left. -/
def after (s : Shell) (process : Nat) (c : Shell) : Shell :=
  let files := { c.session.files with workingDir := s.files.workingDir }
  let status := match c.session.signalOf? process with
    | some n => 128 + n
    | none => c.status % 256
  { s with session := { c.session with files }, status }

/-- A shell with what it was before it looked at a command. -/
def lookedAt (before s : Shell) : Shell := { s with tested := before.tested, last := before.last }

/-- A shell that only looks at a command. -/
def looking (s : Shell) : Shell := { s with tested := true, last := false }

/-- Leave a loop, or go on with it: whether it goes on, and the shell. -/
def endTurn (s : Shell) : Bool × Shell :=
  match s.flow with
  | .leave n => (false, { s with flow := if n ≤ 1 then .on else .leave (n - 1) })
  | .again n =>
    if n ≤ 1 then (true, { s with flow := .on }) else (false, { s with flow := .again (n - 1) })
  | _ => (s.goesOn, s)

/-- Undo the changes of a function to its own variables. -/
def leaveScope (s : Shell) : Shell :=
  match s.scopes with
  | [] => s
  | scope :: outer =>
    scope.foldl (fun s v => s.putVariable v.1 v.2) { s with scopes := outer }

/-- What a shell is told when it starts: switches, and what to run. -/
inductive Errand where
  | text (script : Bytes)
  | file (path : Bytes)
  | input
  | misused (text : Bytes)

/-- The errand in the arguments of a shell, whose `shell` has the flags, name and parameters of the
new one. -/
def errand (shell : Shell) (args : List Bytes) : Errand × Shell :=
  let commands := args.takeWhile fun a =>
    (a.head? = some (byte '-') || a.head? = some (byte '+')) && a ≠ bytes "--" && a ≠ bytes "-"
  let asks (letter : Char) : Bool := commands.any fun a =>
    a.head? = some (byte '-') && a.contains (byte letter)
  let stripped := commands.map fun a =>
    a.filter fun b => b ≠ byte 'c' && b ≠ byte 's' && b ≠ byte 'l'
  let stripped := stripped.filter fun a => a ≠ bytes "-" && a ≠ bytes "+"
  match takeFlags shell (stripped ++ bytes "--" :: args.drop commands.length) with
  | (shell, .error text) => (.misused (bytes "Illegal option -" ++ text), shell)
  | (shell, .ok rest) =>
    let operands := rest.getD []
    let operands := if (args.drop commands.length).head? = some (bytes "--") ∨
      (args.drop commands.length).head? = some (bytes "-") then operands.drop 1 else operands
    if asks 'c' then
      match operands with
      | [] => (.misused (bytes "-c requires an argument"), shell)
      | [script] => (.text script, shell)
      | script :: name :: parameters => (.text script, { shell with name, parameters })
    else match operands with
      | [] => (.input, shell)
      | path :: parameters =>
        if asks 's' then (.input, { shell with parameters := operands })
        else (.file path, { shell with name := path, parameters })

/-- The variables in front of a program to run. -/
def leadingVariables : List Bytes → List (Bytes × Bytes) × List Bytes
  | [] => ([], [])
  | a :: as =>
    match given a with
    | (name, some value) =>
      let (vs, rest) := leadingVariables as
      ((name, value) :: vs, rest)
    | (_, none) => ([], a :: as)

/-- The words of a text between blanks. -/
def blankWords (bs : Bytes) : List Bytes :=
  (fieldsOf (bytes " \t\n") (marks false true bs)).map (·.map (·.1))

/-- Show a command that is about to run, if that is asked for. -/
def trace (words : List Bytes) (s : Shell) : Shell :=
  if s.flags.contains 'x' ∧ words ≠ [] then
    s.writeTo 2 (bytes "+ " ++ [0x20].intercalate words ++ [0x0A])
  else s

/-- Values as they are given. -/
def shownAssignments (vs : List (Bytes × Word)) (s : Shell) : List Bytes :=
  vs.map fun v => v.1 ++ byte '=' :: (s.lookUp? v.1).getD []

mutual

/-- The marks of the parts of a word. -/
def expand (fuel : Nat) (ps : List Part) (s : Shell) : List Mark × Shell :=
  match fuel with
  | 0 => ([], { s with session := { s.session with endless := true } })
  | fuel + 1 =>
    match ps with
    | [] => ([], s)
    | p :: ps =>
      let (ms, s) := expandPart fuel p s
      if s.flow ≠ .on then (ms, s)
      else
        let (rest, s) := expand fuel ps s
        (ms ++ rest, s)

/-- The marks of a part of a word. -/
def expandPart (fuel : Nat) (p : Part) (s : Shell) : List Mark × Shell :=
  match fuel with
  | 0 => ([], { s with session := { s.session with endless := true } })
  | fuel + 1 =>
    match p with
    | .text bs quoted => ((if quoted then [.present] else []) ++ marks quoted false bs, s)
    | .printed c quoted =>
      let (text, s) := capture fuel c s
      ((if quoted then [.present] else []) ++ marks quoted (!quoted) text, s)
    | .number ps quoted =>
      let (ms, s) := expand fuel ps s
      let text := singleBytes ms
      let values := s.named.filterMap fun v => v.2.value.map (v.1, ·)
      match Arithmetic.value values text with
      | .error e => ([], s.fail (e.message text))
      | .ok (n, after) =>
        let given := (after.take (after.length - values.length)).reverse
        let s := given.foldl (fun s v => s.assign v.1 v.2) s
        ((if quoted then [.present] else []) ++ marks quoted (!quoted) (Arithmetic.text n), s)
    | .parameter name use strict word quoted =>
      let value := parameterValue s name
      let isThere := match value with
        | none => false
        | some v => !(strict && v.isEmpty)
      let unset (s : Shell) : List Mark × Shell :=
        if s.flags.contains 'u' ∧ value.isNone ∧ name ≠ bytes "@" ∧ name ≠ bytes "*" then
          ([], s.fail (name ++ bytes ": parameter not set"))
        else (valueMarks s name [] quoted, s)
      let inner (s : Shell) : List Mark × Shell :=
        let (ms, s) := expand fuel word s
        ((if quoted then [.present] else []) ++ if quoted then ms else splitting ms, s)
      match use with
      | .broken => ([], s.fail (bytes "Bad substitution"))
      | .value => match value with
        | some v => (valueMarks s name v quoted, s)
        | none => unset s
      | .length => match value with
        | some v =>
          let n := if name = bytes "@" ∨ name = bytes "*" then s.parameters.length else v.length
          (marks quoted (!quoted) (decimal n), s)
        | none =>
          if s.flags.contains 'u' then unset s else (marks quoted (!quoted) (bytes "0"), s)
      | .orElse => if isThere then (valueMarks s name (value.getD []) quoted, s) else inner s
      | .instead => if isThere then inner s else (if quoted then [.present] else [], s)
      | .assign =>
        if isThere then (valueMarks s name (value.getD []) quoted, s)
        else if !isName name then ([], s.fail (name ++ bytes ": bad variable name"))
        else
          let (ms, s) := expand fuel word s
          let text := singleBytes ms
          (valueMarks s name text quoted, s.assign name text)
      | .require =>
        if isThere then (valueMarks s name (value.getD []) quoted, s)
        else
          let (ms, s) := expand fuel word s
          ([], s.fail (requirement name (singleBytes ms) strict))
      | .cut atEnd longest => match value with
        | none => unset s
        | some v =>
          let (ms, s) := expand fuel word s
          let text := Pattern.cut atEnd longest (Pattern.ofMarked (single ms)) v
          ((if quoted then [.present] else []) ++ marks quoted (!quoted) text, s)

/-- What a command prints, without the ends of lines after it. -/
def capture (fuel : Nat) (c : Command) (s : Shell) : Bytes × Shell :=
  match fuel with
  | 0 => ([], { s with session := { s.session with endless := true } })
  | fuel + 1 =>
    let (i, session) := s.session.add (.collected [])
    let (process, child) := child { s with session }
    let child := finish fuel (run fuel c { child.attach 1 (some i) with tested := false })
    let s := after s process child
    let text := (s.session.stream i).text
    (trimmedEnd (text.filter (· ≠ 0)), { s with printed := some s.status })

/-- The fields of words. -/
def expandWords (fuel : Nat) (ws : List Word) (s : Shell) : List Bytes × Shell :=
  match fuel with
  | 0 => ([], { s with session := { s.session with endless := true } })
  | fuel + 1 =>
    match ws with
    | [] => ([], s)
    | w :: ws =>
      let (ms, s) := expand fuel w s
      if s.flow ≠ .on then ([], s)
      else
        let found := (fieldsOf s.separators ms).flatMap (paths s)
        let (rest, s) := expandWords fuel ws s
        (found ++ rest, s)

/-- The one field of a word. -/
def expandSingle (fuel : Nat) (w : Word) (s : Shell) : Bytes × Shell :=
  match fuel with
  | 0 => ([], { s with session := { s.session with endless := true } })
  | fuel + 1 =>
    let (ms, s) := expand fuel w s
    (singleBytes ms, s)

/-- Make redirections in order, up to the first that fails. -/
def redirect (fuel : Nat) (rs : List Redirect) (s : Shell) : Option Bytes × Shell :=
  match fuel with
  | 0 => (none, { s with session := { s.session with endless := true } })
  | fuel + 1 =>
    match rs with
    | [] => (none, s)
    | .mk d a target :: rs =>
      match a with
      | .here n =>
        let body := ((s.docs.find? (·.number = n)).map (·.body)).getD []
        let (text, s) := expandSingle fuel body s
        let (i, session) := s.session.add (.supply text)
        redirect fuel rs ({ s with session }.attach d (some i))
      | a =>
        let (name, s) := expandSingle fuel target s
        if s.flow ≠ .on then (none, s)
        else
          match if a = .same then sameAs s d name else openAt s d a name with
          | .ok s => redirect fuel rs s
          | .error text => (some text, s)

/-- Give variables values in order. -/
def assignAll (fuel : Nat) (vs : List (Bytes × Word)) (s : Shell) : Shell :=
  match fuel with
  | 0 => { s with session := { s.session with endless := true } }
  | fuel + 1 =>
    match vs with
    | [] => s
    | v :: vs =>
      let (value, s) := expandSingle fuel v.2 s
      if s.flow ≠ .on then s else assignAll fuel vs (s.assign v.1 value)

/-- Run a command of words. -/
def simple (fuel : Nat) (assignments : List (Bytes × Word)) (ws : List Word)
    (rs : List Redirect) (s : Shell) : Shell :=
  match fuel with
  | 0 => { s with session := { s.session with endless := true } }
  | fuel + 1 =>
    let (fields, s) := expandWords fuel ws { s with printed := none }
    if s.flow ≠ .on then s
    else
      let before := s.descriptors
      let (failure, s) := redirect fuel rs s
      if s.flow ≠ .on then { s with descriptors := before }
      else
        match failure, fields with
        | some text, fields =>
          let s := { s with descriptors := before }
          if special.contains (fields.headD []) then s.fail text
          else (s.complain text).withStatus 2
        | none, [] =>
          let s := assignAll fuel assignments { s with descriptors := before }
          if s.flow ≠ .on then s
          else (trace (shownAssignments assignments s) s).withStatus (s.printed.getD 0)
        | none, name :: args =>
          let saved := assignments.map fun v => (v.1, s.named.lookup v.1)
          let s := assignAll fuel assignments s
          if s.flow ≠ .on then { s with descriptors := before }
          else
            let exported := if special.contains name then s
              else assignments.foldl (fun s v =>
                s.putVariable v.1
                  ((s.named.lookup v.1).map fun x => { x with exported := true })) s
            let s := perform fuel name args
              (trace (shownAssignments assignments exported ++ fields) exported)
            let s := if special.contains name then s
              else saved.foldl (fun s v => s.putVariable v.1 v.2) s
            if name = bytes "exec" ∧ args.isEmpty then s else { s with descriptors := before }

/-- Do what a name stands for. -/
def perform (fuel : Nat) (name : Bytes) (args : List Bytes) (s : Shell) : Shell :=
  match fuel with
  | 0 => { s with session := { s.session with endless := true } }
  | fuel + 1 =>
    let function := if special.contains name then none else s.functions.lookup name
    match function with
    | some body =>
      let called := run fuel body
        { s with parameters := args, scopes := [] :: s.scopes, last := false, loops := 0 }
      let called := if called.flow = .back then { called with flow := .on } else called
      { leaveScope called with parameters := s.parameters, last := s.last, loops := s.loops }
    | none =>
      if evaluating.contains name then evaluate fuel name args s
      else match builtin? name with
        | some b => b args s
        | none => start fuel (missing) name args s

/-- The commands of the shell that run others. -/
def evaluate (fuel : Nat) (name : Bytes) (args : List Bytes) (s : Shell) : Shell :=
  match fuel with
  | 0 => { s with session := { s.session with endless := true } }
  | fuel + 1 =>
    if name = bytes "eval" then
      script fuel false (scriptOf s ([0x20].intercalate args)) (s.withStatus 0)
    else if name = bytes "." then
      match args with
      | [] => s.withStatus 0
      | path :: _ =>
        let path := if path.contains Path.separator ∨ !s.files.exists? ⟨path⟩ then path
          else bytes "./" ++ path
        match s.files.read ⟨path⟩ with
        | .ok text =>
          let s := script fuel false (scriptOf s text.toList) (s.withStatus 0)
          if s.flow = .back then { s with flow := .on } else s
        | .error e =>
          if path.contains Path.separator then s.fail (bytes ".: " ++ openRefusal false path e)
          else s.fail (bytes ".: " ++ path ++ bytes ": not found")
    else if name = bytes "exec" then
      match args with
      | [] => s.withStatus 0
      | program :: args =>
        { start fuel missing program args { s with last := true, traps := [] } with
          flow := .exit, traps := [] }
    else
      let describes := name = bytes "type" ∨ args.head? = some (bytes "-v") ∨
        args.head? = some (bytes "-V")
      if describes then
        let names := if name = bytes "type" then args else (args.drop 1).take 1
        let long := args.head? ≠ some (bytes "-v")
        names.foldl (fun s n =>
          let line (long short : Bytes) : Bytes := if long.isEmpty then short else long
          let found : Option (Bytes × Bytes) :=
            if Reader.reserved.contains n then some (n ++ bytes " is a shell keyword", n)
            else if (s.functions.lookup n).isSome then some (n ++ bytes " is a shell function", n)
            else if special.contains n then some (n ++ bytes " is a special shell builtin", n)
            else if (builtin? n).isSome ∨ evaluating.contains n then
              some (n ++ bytes " is a shell builtin", n)
            else if isInstalled n then
              let path := if n.contains Path.separator then n else bytes "/usr/bin/" ++ n
              some (n ++ bytes " is " ++ path, path)
            else none
          match found with
          | some (a, b) => s.print (line (if long then a else []) b ++ [0x0A])
          | none =>
            (if long then s.print (n ++ bytes ": not found\n") else s).withStatus 127)
          (s.withStatus 0)
      else
        let args := args.filter fun a => a ≠ bytes "-p" && a ≠ bytes "--"
        match args with
        | [] => s.withStatus 0
        | n :: args =>
          if evaluating.contains n then evaluate fuel n args s
          else match builtin? n with
            | some b => b args s
            | none => start fuel missing n args s

/-- Start a program and wait for it. The last thing that a shell does takes its place. -/
def start (fuel : Nat) (complaint : Bytes → Option FileError → Shell → Shell) (name : Bytes)
    (args : List Bytes) (s : Shell) : Shell :=
  match fuel with
  | 0 => { s with session := { s.session with endless := true } }
  | fuel + 1 =>
    match program? s.session name with
    | .error why => complaint name why s
    | .ok p =>
      match p with
      | .tool t => runTool t name args s
      | .shell => newShell fuel name args s
      | .script => newShell fuel (bytes "sh") (name :: args) s
      | .runner r => runOther fuel r args s

/-- Run a program that runs others. -/
def runOther (fuel : Nat) (runner : Bytes) (args : List Bytes) (s : Shell) : Shell :=
  match fuel with
  | 0 => { s with session := { s.session with endless := true } }
  | fuel + 1 =>
    let inner := { s with last := false }
    let back (t : Shell) : Shell :=
      { t with named := s.named, last := s.last }
    if runner = bytes "chmod" then chmod args s
    else if runner = bytes "env" then
      let clears := args.head? = some (bytes "-i") ∨ args.head? = some (bytes "-")
      let (vs, rest) := leadingVariables (if clears then args.drop 1 else args)
      let inner := if clears then { inner with named := [] } else inner
      let inner := vs.foldl (fun t v => t.putVariable v.1 (some ⟨some v.2, true, false⟩)) inner
      match rest with
      | [] => back (runTool Tool.printenv runner [] inner)
      | program :: args => back (start fuel (cannotRun runner) program args inner)
    else if runner = bytes "timeout" then
      let rest := args.dropWhile fun a => a.head? = some (byte '-')
      match rest with
      | limit :: program :: args =>
        match Tool.duration? limit with
        | some (some ms) =>
          let t := start fuel (cannotRun runner) program args inner
          let ends := s.session.now + ms
          if ms ≠ 0 ∧ (t.session.endless ∨ ends < t.session.now) then
            back { t with
              session := { t.session with now := ends, endless := false }
              status := 124 }
          else back t
        | some none => back (start fuel (cannotRun runner) program args inner)
        | none =>
          (s.writeTo 2 (bytes "timeout: invalid time interval " ++ Quoted.always limit ++
            bytes "\nTry 'timeout --help' for more information.\n")).withStatus 125
      | _ =>
        (s.writeTo 2 (bytes "Try 'timeout --help' for more information.\n")).withStatus 125
    else if runner = bytes "xargs" then
      let words := match s.streamOf? 0 with
        | some i => blankWords (s.session.unread i)
        | none => []
      let (program, given) := match args.dropWhile fun a => a.head? = some (byte '-') with
        | [] => (bytes "echo", [])
        | p :: ps => (p, ps)
      let t := start fuel (cannotRun runner) program (given ++ words) inner
      back (if t.status = 0 ∨ 125 < t.status then t else t.withStatus 123)
    else
      let rest := match args with
        | n :: m :: rest => if n = bytes "-n" then rest else
            (n :: m :: rest).dropWhile fun a => a.head? = some (byte '-')
        | rest => rest.dropWhile fun a => a.head? = some (byte '-')
      match rest with
      | [] => s.withStatus 0
      | program :: args => back (start fuel (cannotRun runner) program args inner)

/-- Run a new shell and wait for it. -/
def newShell (fuel : Nat) (name : Bytes) (args : List Bytes) (s : Shell) : Shell :=
  match fuel with
  | 0 => { s with session := { s.session with endless := true } }
  | fuel + 1 =>
    let replaces := s.last && s.traps.isEmpty
    let (process, session) := if replaces then (s.self, s.session) else s.session.fork
    let fresh := { begin session process s.environment with name, descriptors := s.descriptors }
    let (what, fresh) := errand fresh args
    let ended := match what with
      | .misused text =>
        (fresh.writeTo 2 (name ++ bytes ": 0: " ++ text ++ [0x0A])).withStatus 2
      | .text t => finish fuel (script fuel true (scriptOf fresh t) fresh)
      | .input =>
        let text := match fresh.streamOf? 0 with
          | some i => fresh.session.unread i
          | none => []
        finish fuel (script fuel false (scriptOf fresh text) fresh)
      | .file path =>
        match fresh.files.read ⟨path⟩ with
        | .ok text => finish fuel (script fuel false (scriptOf fresh text.toList) fresh)
        | .error .isDirectory => fresh
        | .error e =>
          let text := name ++ bytes ": 0: " ++ openRefusal false path e ++ [0x0A]
          (fresh.writeTo 2 text).withStatus 2
    let s := after s process ended
    if replaces then s else heed process s

/-- The reader of a text that is part of a shell's script. Zero bytes do not count. -/
def scriptOf (s : Shell) (text : Bytes) : Cursor :=
  { Cursor.ofScript (text.filter (· ≠ 0)) with docs := s.docs, made := s.docs.length }

/-- Run a script line by line. The end of a text given to a shell is the last thing that it does. -/
def script (fuel : Nat) (isLast : Bool) (cursor : Cursor) (s : Shell) : Shell :=
  match fuel with
  | 0 => { s with session := { s.session with endless := true } }
  | fuel + 1 =>
    if !s.goesOn then s
    else match cursor.next with
      | (.error e, cursor) =>
        { s with line := cursor.line }.fail (bytes ("Syntax error: " ++ e.message))
      | (.ok none, _) => s
      | (.ok (some c), cursor) =>
        let s := { s with docs := cursor.docs, last := isLast && cursor.rest.isEmpty }
        script fuel isLast cursor (if s.flags.contains 'n' then s else run fuel c s)

/-- Do what is to be done at the end of a shell. -/
def finish (fuel : Nat) (s : Shell) : Shell :=
  match fuel with
  | 0 => { s with session := { s.session with endless := true } }
  | fuel + 1 =>
    match s.traps.lookup 0 with
    | none => s
    | some action =>
      if s.isKilled ∨ s.session.endless then s
      else
        let t := script fuel false (scriptOf s action)
          { s with traps := s.traps.filter (·.1 ≠ 0), flow := .on, last := false }
        if t.flow = .exit then t else t.withStatus s.status

/-- Deal with the signals that came. -/
def attend (fuel : Nat) (s : Shell) : Shell :=
  match fuel with
  | 0 => { s with session := { s.session with endless := true } }
  | fuel + 1 =>
    match s.pending with
    | [] => s
    | n :: pending =>
      let s := { s with pending }
      let t := script fuel false (scriptOf s ((s.traps.lookup n).getD [])) s
      attend fuel (if t.flow = .on then t.withStatus s.status else t)

/-- Run a command. -/
def run (fuel : Nat) (c : Command) (s : Shell) : Shell :=
  match fuel with
  | 0 => { s with session := { s.session with endless := true } }
  | fuel + 1 =>
    if !s.goesOn then s
    else match c with
      | .nothing => s.withStatus 0
      | .simple assignments ws rs line =>
        minding (attend fuel (simple fuel assignments ws rs { s with line }))
      | .pipeline cs => minding (pipeline fuel cs none s.session.now s.session.now s)
      | .negated c =>
        let t := lookedAt s (run fuel c (looking s))
        if t.goesOn then t.withStatus (if t.status = 0 then 1 else 0) else t
      | .joined a connector b =>
        let first := if connector = .always then { s with last := false } else looking s
        let t := lookedAt s (run fuel a first)
        if !t.goesOn then t
        else match connector with
          | .always => run fuel b t
          | .ifOk => if t.status = 0 then run fuel b t else t
          | .ifFailed => if t.status = 0 then t else run fuel b t
      | .background c => background fuel c s
      | .subshell c =>
        let (process, inner) := child s
        minding (after s process (finish fuel (run fuel c inner)))
      | .redirected c rs line =>
        let (failure, t) := redirect fuel rs { s with line }
        match failure with
        | some text =>
          minding (({ t with descriptors := s.descriptors }.complain text).withStatus 2)
        | none =>
          let t := run fuel c { t with last := s.last && rs.isEmpty }
          { t with descriptors := s.descriptors, last := s.last }
      | .choice question yes no =>
        let t := lookedAt s (run fuel question (looking s))
        if !t.goesOn then t
        else if t.status = 0 then run fuel yes t
        else run fuel no t
      | .loop stop question body =>
        let t := loop fuel stop question body 0 { s with loops := s.loops + 1 }
        { t with loops := s.loops, last := s.last }
      | .each name ws body line =>
        let (values, t) := expandWords fuel ws { s with line }
        if t.flow ≠ .on then t
        else
          let t := each fuel name values body
            { t with loops := s.loops + 1, last := false, status := 0 }
          { t with loops := s.loops, last := s.last }
      | .select w branches line =>
        let (text, t) := expandSingle fuel w { s with line }
        if t.flow ≠ .on then t else select fuel text branches t
      | .define name body =>
        { s with
          functions := (name, body) :: s.functions.filter (·.1 ≠ name)
          status := 0 }

/-- Run a command in the background. -/
def background (fuel : Nat) (c : Command) (s : Shell) : Shell :=
  match fuel with
  | 0 => { s with session := { s.session with endless := true } }
  | fuel + 1 =>
    let began := s.session.now
    let (process, inner) := child s
    let (i, session) := inner.session.add .nowhere
    let inner := { inner with session, tested := false }.attach 0 (some i)
    let keeps := keepsOpen inner c
    let inner := finish fuel (run fuel c inner)
    let ended := inner.session.now
    let t := after s process inner
    let job : Job := ⟨process, ended, t.status⟩
    let endless := s.session.endless || (t.session.endless && keeps)
    let held := if keeps then [(process, ended)] else []
    { t with
      session := { t.session with now := began, endless, held := held ++ t.session.held }
      jobs := job :: s.jobs
      status := 0 }

/-- Run commands with pipes between them, all at the same time; `began` is when, `ended` when the
last of those before ended, and `input` the stream that the next one reads. -/
def pipeline (fuel : Nat) (cs : List Command) (input : Option Nat) (began ended : Nat)
    (s : Shell) : Shell :=
  match fuel with
  | 0 => { s with session := { s.session with endless := true } }
  | fuel + 1 =>
    match cs with
    | [] => { s with session := { s.session with now := ended } }
    | c :: cs =>
      let (process, inner) := child { s with session := { s.session with now := began } }
      let inner := { inner with tested := false }
      let inner := match input with
        | some i => inner.attach 0 (some i)
        | none => inner
      let (i, session) := inner.session.add (.collected [])
      let inner := if cs.isEmpty then inner else { inner with session }.attach 1 (some i)
      let t := after s process (finish fuel (run fuel c inner))
      let ended := max ended t.session.now
      if cs.isEmpty then { t with session := { t.session with now := ended } }
      else
        let (j, session) := t.session.add (.supply (t.session.stream i).text)
        pipeline fuel cs (some j) began ended { t with session }

/-- Run the body of a loop until its question is answered otherwise; `status` is that of the last
turn. -/
def loop (fuel : Nat) (stop : Bool) (question body : Command) (status : Nat) (s : Shell) :
    Shell :=
  match fuel with
  | 0 => { s with session := { s.session with endless := true } }
  | fuel + 1 =>
    let t := lookedAt s (run fuel question { s with tested := true, last := false })
    if !t.goesOn then (endTurn t).2
    else if (t.status = 0) = stop then t.withStatus status
    else
      let (goes, t) := endTurn (run fuel body { t with last := false })
      if goes then loop fuel stop question body t.status t else t

/-- Run a command for each value of a variable. -/
def each (fuel : Nat) (name : Bytes) (values : List Bytes) (body : Command) (s : Shell) : Shell :=
  match fuel with
  | 0 => { s with session := { s.session with endless := true } }
  | fuel + 1 =>
    match values with
    | [] => s
    | v :: values =>
      let (goes, t) := endTurn (run fuel body (s.assign name v))
      if goes then each fuel name values body t else t

/-- Run the first branch with a pattern for a text. -/
def select (fuel : Nat) (text : Bytes) (branches : List (List Word × Command)) (s : Shell) :
    Shell :=
  match fuel with
  | 0 => { s with session := { s.session with endless := true } }
  | fuel + 1 =>
    match branches with
    | [] => s.withStatus 0
    | (patterns, body) :: branches =>
      match patterns with
      | [] => select fuel text branches s
      | w :: ws =>
        let (ms, s) := expand fuel w s
        if s.flow ≠ .on then s
        else if Pattern.matchesText (Pattern.ofMarked (single ms)) text then run fuel body s
        else select fuel text ((ws, body) :: branches) s

end

/-- How many steps within steps a launch may take. -/
def depth : Nat := 20000

end DownloadTriage.Shell
