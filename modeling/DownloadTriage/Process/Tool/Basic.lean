import DownloadTriage.Files.Tree
import DownloadTriage.Process.Quoted

/-!
# Tools

A tool is a program that reads its input and some files, prints, and ends. What it does is a change
of its work: the files, what is left of the input, what was printed so far, and its status.
-/

namespace DownloadTriage

/-- How a tool is called. -/
structure Call where
  name : Bytes
  args : List Bytes
  environment : List (Bytes × Bytes)
  /-- The length of the file that the input is, if it is one. -/
  inputSize : Option Nat

/-- Where a piece of text goes. -/
inductive Outlet where
  | output
  | errors
  deriving DecidableEq, Repr

/-- The work of a tool: pieces are kept newest first. Without a duration it never ends. -/
structure Work where
  files : FileTree
  input : Bytes
  pieces : List (Outlet × Bytes)
  status : Nat
  durationMs : Option Nat

/-- A tool does its work for a call. -/
abbrev Tool := Call → StateM Work Unit

namespace Tool

/-- Print to the output. -/
def print (bs : Bytes) : StateM Work Unit :=
  modify fun w => if bs.isEmpty then w else { w with pieces := (.output, bs) :: w.pieces }

/-- Print a line. -/
def printLine (bs : Bytes) : StateM Work Unit := print (bs ++ [0x0A])

/-- End with a status, later. -/
def endWith (status : Nat) : StateM Work Unit := modify fun w => { w with status }

/-- A line to the errors under the name of the call. -/
def say (c : Call) (text : Bytes) : StateM Work Unit :=
  modify fun w => { w with pieces := (.errors, c.name ++ bytes ": " ++ text ++ [0x0A]) :: w.pieces }

/-- Complain, and end with a status. -/
def complainWith (status : Nat) (c : Call) (text : Bytes) : StateM Work Unit := do
  say c text
  endWith status

/-- Complain, and end badly. -/
def complain (c : Call) (text : Bytes) : StateM Work Unit := complainWith 1 c text

/-- Complain about how the tool is used. -/
def misused (status : Nat) (c : Call) (text : Bytes) : StateM Work Unit := do
  complainWith status c text
  modify fun w =>
    { w with
      pieces := (.errors, bytes "Try '" ++ c.name ++ bytes " --help' for more information.\n") ::
        w.pieces }

/-- The files at this point. -/
def files : StateM Work FileTree := return (← get).files

/-- Change the files. -/
def setFiles (files : FileTree) : StateM Work Unit := modify fun w => { w with files }

/-- All of the input that is left. -/
def takeInput : StateM Work Bytes :=
  modifyGet fun w => (w.input, { w with input := [] })

/-- The words for a refusal. -/
def refusal : FileError → Bytes
  | .notFound => bytes "No such file or directory"
  | .notDirectory => bytes "Not a directory"
  | .isDirectory => bytes "Is a directory"
  | .nameTooLong => bytes "File name too long"
  | .nulInPath => bytes "Invalid argument"

/-- The content of an operand, where `-` is the input. -/
def operand (name : Bytes) : StateM Work (Except FileError Bytes) := do
  if name = bytes "-" ∨ name = bytes "/dev/stdin" then return .ok (← takeInput)
  else return ((← files).read ⟨name⟩).map Array.toList

/-- The operands, or the input if there are none. -/
def sources (operands : List Bytes) : List Bytes :=
  if operands.isEmpty then [bytes "-"] else operands

/-! ## Switches -/

/-- A switch of a tool: its letter, its long name, and whether it takes an argument. -/
structure Switch where
  letter : Char
  long : String
  takes : Bool
  deriving DecidableEq, Repr

/-- A switch that takes no argument. -/
def flag (letter : Char) (long : String) : Switch := ⟨letter, long, false⟩

/-- A switch that takes an argument. -/
def setting (letter : Char) (long : String) : Switch := ⟨letter, long, true⟩

/-- What a call says: switches with their arguments, in order, and operands. -/
structure Usage where
  switches : List (Char × Bytes)
  operands : List Bytes
  deriving DecidableEq, Repr

namespace Usage

/-- Whether a switch is given. -/
def has (u : Usage) (letter : Char) : Bool := u.switches.any (·.1 = letter)

/-- The last argument of a switch. -/
def last? (u : Usage) (letter : Char) : Option Bytes :=
  (u.switches.reverse.find? (·.1 = letter)).map (·.2)

/-- The last of some switches that is given. -/
def lastOf? (u : Usage) (letters : List Char) : Option (Char × Bytes) :=
  u.switches.reverse.find? fun s => letters.contains s.1

/-- Put a switch in front. -/
def addSwitch (u : Usage) (letter : Char) (arg : Bytes) : Usage :=
  { u with switches := (letter, arg) :: u.switches }

/-- Put an operand in front. -/
def addOperand (u : Usage) (bs : Bytes) : Usage := { u with operands := bs :: u.operands }

end Usage

/-- What is wrong with a call, or that it asks about the tool. -/
inductive Misuse where
  | unknownLetter (b : UInt8)
  | needsArgument (b : UInt8)
  | unknownLong (text : Bytes)
  | ambiguous (text : Bytes) (meant : List String)
  | longNeedsArgument (name : String)
  | longTakesNone (name : String)
  | asked
  deriving DecidableEq, Repr

/-- What is said of a wrong call. -/
def Misuse.message : Misuse → Bytes
  | unknownLetter b => bytes "invalid option -- '" ++ b :: bytes "'"
  | needsArgument b => bytes "option requires an argument -- '" ++ b :: bytes "'"
  | unknownLong text => bytes "unrecognized option '" ++ text ++ bytes "'"
  | ambiguous text meant =>
    bytes "option '" ++ text ++ bytes "' is ambiguous; possibilities:" ++
      meant.flatMap fun m => bytes (" '--" ++ m ++ "'")
  | longNeedsArgument name => bytes ("option '--" ++ name ++ "' requires an argument")
  | longTakesNone name => bytes ("option '--" ++ name ++ "' doesn't allow an argument")
  | asked => []

/-- The switch of a letter. -/
def switchOf? (known : List Switch) (b : UInt8) : Option Switch :=
  known.find? fun s => s.letter.toNat = b.toNat

/-- The letters of one argument; `after` are the arguments behind it, of which the first may belong
to the last letter. -/
def letters (known : List Switch) (after : List Bytes) :
    Bytes → Except Misuse (List (Char × Bytes) × List Bytes)
  | [] => .ok ([], after)
  | b :: bs =>
    match switchOf? known b with
    | none => .error (.unknownLetter b)
    | some s =>
      if s.takes then
        if bs ≠ [] then .ok ([(s.letter, bs)], after)
        else match after with
          | [] => .error (.needsArgument b)
          | a :: after => .ok ([(s.letter, a)], after)
      else do
        let (others, after) ← letters known after bs
        return ((s.letter, []) :: others, after)

/-- The letters that stand for questions about a tool. -/
def questions : List Switch := [flag '\x01' "help", flag '\x02' "version"]

/-- A long switch, which may be cut short as long as no other is meant. -/
def longSwitch (known : List Switch) (text name : Bytes) : Except Misuse Switch :=
  match known.find? fun s => s.long ≠ "" && bytes s.long = name with
  | some s => .ok s
  | none =>
    match known.filter fun s => s.long ≠ "" && name.isPrefixOf (bytes s.long) with
    | [] => .error (.unknownLong text)
    | s :: others =>
      if others.all (·.letter = s.letter) then .ok s
      else .error (.ambiguous text ((s :: others).map (·.long)))

/-- The usage of arguments, at most `n` of them. Switches may stand behind operands, up to `--`. -/
def usage (known : List Switch) : Nat → List Bytes → Except Misuse Usage
  | 0, _ => .ok ⟨[], []⟩
  | _, [] => .ok ⟨[], []⟩
  | n + 1, a :: as =>
    match a with
    | [0x2D, 0x2D] => .ok ⟨[], as⟩
    | 0x2D :: 0x2D :: text => do
      let name := text.takeWhile (· ≠ byte '=')
      let value : Option Bytes :=
        if name.length < text.length then some (text.drop (name.length + 1)) else none
      let s ← longSwitch (known ++ questions) a name
      if questions.contains s then throw .asked
      else
        match s.takes, value, as with
        | true, some v, as => return (← usage known n as).addSwitch s.letter v
        | true, none, v :: as => return (← usage known n as).addSwitch s.letter v
        | true, none, [] => .error (.longNeedsArgument s.long)
        | false, none, as => return (← usage known n as).addSwitch s.letter []
        | false, some _, _ => .error (.longTakesNone s.long)
    | 0x2D :: b :: bs => do
      let (given, after) ← letters known as (b :: bs)
      let u ← usage known n after
      return { u with switches := given ++ u.switches }
    | a => return (← usage known n as).addOperand a

/-- Do what a call with these switches asks for. A call that asks about the tool prints a line about
it. -/
def withUsage (status : Nat) (known : List Switch) (act : Usage → Tool) : Tool := fun c =>
  match usage known (c.args.length + 1) c.args with
  | .ok u => act u c
  | .error .asked => printLine (bytes "Usage: " ++ c.name)
  | .error e => misused status c e.message

end Tool

end DownloadTriage
