import DownloadTriage.Process.Pattern
import DownloadTriage.Process.Reader
import DownloadTriage.Process.Session
import DownloadTriage.Process.Tool.Basic

/-!
# A shell under way

The state of one shell: its variables and parameters, where its descriptors lead, and how it goes
on.
-/

namespace DownloadTriage

open Script

/-- How a shell goes on. -/
inductive Flow where
  | on
  /-- Leave that many loops. -/
  | leave (loops : Nat)
  /-- Leave all but the last of that many loops, and go on with that one. -/
  | again (loops : Nat)
  /-- Leave the function. -/
  | back
  /-- The shell ends. -/
  | exit
  deriving DecidableEq, Repr

/-- A variable; without a value it is only marked. -/
structure Variable where
  value : Option Bytes
  exported : Bool
  readOnly : Bool
  deriving DecidableEq, Repr

/-- A process in the background. -/
structure Job where
  process : Nat
  endsAt : Nat
  status : Nat
  deriving DecidableEq, Repr

/-- A shell. -/
structure Shell where
  session : Session
  /-- The number that scripts see, and the number of the process itself. -/
  shown : Nat
  self : Nat
  name : Bytes
  parameters : List Bytes
  named : List (Bytes × Variable)
  functions : List (Bytes × Command)
  docs : List HereDoc
  status : Nat
  line : Nat
  /-- The streams of descriptors. -/
  descriptors : List (Nat × Nat)
  flags : List Char
  traps : List (Nat × Bytes)
  /-- Signals that came and are still to be dealt with. -/
  pending : List Nat
  jobs : List Job
  flow : Flow
  /-- How many loops are under way. -/
  loops : Nat
  /-- A failure is looked at, and ends nothing. -/
  tested : Bool
  /-- The command is the last thing that the shell does. -/
  last : Bool
  /-- The status of what a command was asked to print for the words at hand. -/
  printed : Option Nat
  /-- What variables were before functions changed them, one list for each function. -/
  scopes : List (List (Bytes × Option Variable))

namespace Shell

/-- A shell at the start of a session. -/
def begin (session : Session) (self : Nat) (environment : List (Bytes × Bytes)) : Shell where
  session
  shown := self
  self
  name := bytes "sh"
  parameters := []
  named := environment.map fun v => (v.1, ⟨some v.2, true, false⟩)
  functions := []
  docs := []
  status := 0
  line := 1
  descriptors := [(0, 0), (1, 1), (2, 2)]
  flags := []
  traps := []
  pending := []
  jobs := []
  flow := .on
  loops := 0
  tested := false
  last := false
  printed := none
  scopes := []

/-- Whether the process was ended from outside. -/
def isKilled (s : Shell) : Bool := (s.session.signalOf? s.self).isSome

/-- Whether the shell goes on with the next command. -/
def goesOn (s : Shell) : Bool := s.flow = .on && !s.session.endless && !s.isKilled

/-- Set the status. -/
def withStatus (s : Shell) (status : Nat) : Shell := { s with status }

/-- The files. -/
def files (s : Shell) : FileTree := s.session.files

/-- Change the files. -/
def setFiles (s : Shell) (files : FileTree) : Shell :=
  { s with session := { s.session with files } }

/-! ## Streams -/

/-- The stream of a descriptor. -/
def streamOf? (s : Shell) (descriptor : Nat) : Option Nat := s.descriptors.lookup descriptor

/-- Let a descriptor lead to a stream, or to nothing. -/
def attach (s : Shell) (descriptor : Nat) (stream : Option Nat) : Shell :=
  let others := s.descriptors.filter (·.1 ≠ descriptor)
  { s with descriptors := (stream.toList.map fun i => (descriptor, i)) ++ others }

/-- Write to a descriptor. -/
def writeTo (s : Shell) (descriptor : Nat) (bs : Bytes) : Shell :=
  if bs.isEmpty then s
  else match s.streamOf? descriptor with
    | some i => { s with session := s.session.write i bs }
    | none => s

/-- Print. -/
def print (s : Shell) (bs : Bytes) : Shell := s.writeTo 1 bs

/-- Complain under the shell's name and the line. -/
def complain (s : Shell) (text : Bytes) : Shell :=
  s.writeTo 2 (s.name ++ bytes ": " ++ decimal s.line ++ bytes ": " ++ text ++ [0x0A])

/-- Complain and end. -/
def fail (s : Shell) (text : Bytes) : Shell :=
  { s.complain text with status := 2, flow := .exit }

/-- Whether the output or the errors of the whole are still open here. -/
def holdsOutput (s : Shell) : Bool := s.descriptors.any fun d => d.2 = 1 || d.2 = 2

/-! ## Variables -/

/-- The value of a variable. -/
def lookUp? (s : Shell) (name : Bytes) : Option Bytes :=
  (s.named.lookup name).bind (·.value)

/-- Put a variable in the place of another of its name. -/
def putVariable (s : Shell) (name : Bytes) (v : Option Variable) : Shell :=
  let others := s.named.filter (·.1 ≠ name)
  { s with named := (v.toList.map fun v => (name, v)) ++ others }

/-- Give a variable a value. It stays exported; one that cannot be changed ends the shell. -/
def assign (s : Shell) (name value : Bytes) : Shell :=
  match s.named.lookup name with
  | some v =>
    if v.readOnly then s.fail (name ++ bytes ": is read only")
    else s.putVariable name (some { v with value := some value })
  | none => s.putVariable name (some ⟨some value, s.flags.contains 'a', false⟩)

/-- The variables that programs are given. -/
def environment (s : Shell) : List (Bytes × Bytes) :=
  s.named.filterMap fun v => if v.2.exported then v.2.value.map (v.1, ·) else none

/-- The separators of fields. -/
def separators (s : Shell) : Bytes :=
  match s.named.lookup (bytes "IFS") with
  | some v => v.value.getD (bytes " \t\n")
  | none => bytes " \t\n"

/-- The value of a parameter that is no list; none if it is unset. -/
def parameter? (s : Shell) (name : Bytes) : Option Bytes :=
  match name with
  | [b] =>
    if b = byte '#' then some (decimal s.parameters.length)
    else if b = byte '?' then some (decimal s.status)
    else if b = byte '$' then some (decimal s.shown)
    else if b = byte '!' then s.jobs.head?.map fun j => decimal j.process
    else if b = byte '-' then some (s.flags.map byte)
    else if b = byte '0' then some s.name
    else if isDigit b then s.parameters[b.toNat - 49]?
    else s.lookUp? name
  | name =>
    match number? name with
    | some 0 => some s.name
    | some n => s.parameters[n - 1]?
    | none =>
      if name = bytes "PWD" then
        some ((s.lookUp? name).getD (Path.ofNames s.files.workingDir).bytes)
      else if name = bytes "LINENO" then some (decimal s.line)
      else if name = bytes "PPID" then some (bytes "1")
      else if name = bytes "OPTIND" then some ((s.lookUp? name).getD (bytes "1"))
      else s.lookUp? name

/-! ## Fields -/

/-- A byte of an expanded word, or a sign in it. -/
inductive Mark where
  /-- A byte that may be quoted, and that may separate fields. -/
  | byte (b : UInt8) (quoted splits : Bool)
  /-- There is a field here, even if it is empty. -/
  | present
  /-- A further field begins here. -/
  | apart
  deriving DecidableEq, Repr

/-- Bytes as marks. -/
def marks (quoted splits : Bool) (bs : Bytes) : List Mark := bs.map (.byte · quoted splits)

/-- Fields under way: complete ones in order, the open one, and whether a blank closed the last. -/
structure Fields where
  closed : List (List (UInt8 × Bool))
  current : Option (List (UInt8 × Bool))
  afterBlank : Bool

/-- Close the open field. -/
def Fields.close (f : Fields) (afterBlank : Bool) : Fields :=
  match f.current with
  | some c => ⟨f.closed ++ [c], none, afterBlank⟩
  | none => { f with afterBlank := f.afterBlank && afterBlank }

/-- Take a mark. A blank closes a field; another separator closes one even if it is empty. -/
def Fields.take (separators : Bytes) (f : Fields) : Mark → Fields
  | .present => { f with current := some (f.current.getD []) }
  | .apart => f.close false
  | .byte b quoted splits =>
    if splits ∧ separators.contains b then
      if (bytes " \t\n").contains b then f.close (f.current.isSome || f.afterBlank)
      else match f.current with
        | some c => ⟨f.closed ++ [c], none, false⟩
        | none =>
          if f.afterBlank then { f with afterBlank := false }
          else { f with closed := f.closed ++ [[]] }
    else { f with current := some (f.current.getD [] ++ [(b, quoted)]), afterBlank := false }

/-- The fields of marks. -/
def fieldsOf (separators : Bytes) (ms : List Mark) : List (List (UInt8 × Bool)) :=
  ((ms.foldl (Fields.take separators) ⟨[], none, false⟩).close false).closed

/-- Marks as one field, with a blank where another would begin. -/
def single (ms : List Mark) : List (UInt8 × Bool) :=
  ms.filterMap fun m => match m with
    | .byte b quoted _ => some (b, quoted)
    | .present => none
    | .apart => some (0x20, true)

/-- The bytes of marks as one field. -/
def singleBytes (ms : List Mark) : Bytes := (single ms).map (·.1)

/-- The pieces of a pattern between slashes. -/
def patternPieces (field : List (UInt8 × Bool)) : List (List (UInt8 × Bool)) :=
  field.foldr (fun m acc =>
    if m.1 = Path.separator then [] :: acc
    else match acc with
      | p :: ps => (m :: p) :: ps
      | [] => [[m]]) [[]]

/-- The names in a directory that a piece of a pattern stands for. Hidden names must be meant. -/
def matchingNames (t : FileTree) (here : Place) (piece : List (UInt8 × Bool)) : List Bytes :=
  let pattern := Pattern.ofMarked piece
  let names := t.nodes.filterMap fun m =>
    if here.isPrefixOf m.1 ∧ m.1.length = here.length + 1 then m.1.getLast? else none
  (bytes "." :: bytes ".." :: names).filter fun n =>
    Pattern.matchesText pattern n &&
      (n.head? ≠ some (byte '.') || (piece.head?.map (·.1)) = some (byte '.'))

/-- The paths that the pieces of a pattern stand for, from a path that was walked so far. -/
def globbed (t : FileTree) (walked : Bytes) : List (List (UInt8 × Bool)) → List Bytes
  | [] => [walked]
  | piece :: rest =>
    let next (name : Bytes) : Bytes := walked ++ name ++ if rest.isEmpty then [] else [0x2F]
    if Pattern.isActive (Pattern.ofMarked piece) then
      match t.look ⟨if walked = [] then bytes "." else walked⟩ with
      | .ok (here, .directory) =>
        (matchingNames t here piece).flatMap fun n => globbed t (next n) rest
      | _ => []
    else
      let path := next (piece.map (·.1))
      if rest.isEmpty then
        if piece = [] ∨ t.exists? ⟨path⟩ then [path] else []
      else globbed t path rest

/-- The paths that a field stands for: itself, unless it is a pattern that finds some. -/
def paths (s : Shell) (field : List (UInt8 × Bool)) : List Bytes :=
  let plain := field.map (·.1)
  if s.flags.contains 'f' ∨ !Pattern.isActive (Pattern.ofMarked field) then [plain]
  else match globbed s.files [] (patternPieces field) with
    | [] => [plain]
    | found => found.mergeSort bytesLe

end Shell

end DownloadTriage
