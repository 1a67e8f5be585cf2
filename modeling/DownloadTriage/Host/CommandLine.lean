import DownloadTriage.Files.Path

/-!
# The command line

What the agent is started with: a directory to watch, and files to scan at once.
-/

namespace DownloadTriage

/-- What the agent is to do besides what its settings say. -/
structure StartOptions where
  watchDir : Option Path
  scans : List Path
  deriving DecidableEq, Repr

/-- What the agent is started for. -/
inductive Invocation where
  | run (options : StartOptions)
  | help
  | version
  deriving DecidableEq, Repr

/-- An option with a value. -/
inductive ValueOption where
  | watch
  | scan
  deriving DecidableEq, Repr

/-- The option as it is written. -/
def ValueOption.flag : ValueOption → String
  | watch => "--watch"
  | scan => "--scan"

/-- The option with what it asks for. -/
def ValueOption.usage : ValueOption → String
  | watch => "--watch <DIR>"
  | scan => "--scan <PATH>"

/-- Why arguments are refused. -/
inductive ArgumentError where
  | unexpected (argument : String)
  | missingValue (option : ValueOption)
  | repeated (option : ValueOption)
  deriving DecidableEq, Repr

/-- What is said of refused arguments. -/
def ArgumentError.message : ArgumentError → String
  | unexpected a => "unexpected argument '" ++ a ++ "' found"
  | missingValue o => "a value is required for '" ++ o.usage ++ "' but none was supplied"
  | repeated o => "the argument '" ++ o.usage ++ "' cannot be used multiple times"

namespace StartOptions

/-- No options. -/
def none : StartOptions := ⟨.none, []⟩

/-- The options with one more. Only one directory can be watched. -/
def add (o : StartOptions) (option : ValueOption) (value : String) :
    Except ArgumentError StartOptions :=
  match option, o.watchDir with
  | .scan, _ => .ok { o with scans := o.scans ++ [Path.ofText value] }
  | .watch, .none => .ok { o with watchDir := some (Path.ofText value) }
  | .watch, some _ => .error (.repeated .watch)

end StartOptions

namespace Invocation

/-- The option that an argument names, and the value that it carries after an equals sign. -/
def option? (argument : String) : Option (ValueOption × Option String) :=
  let name := argument.toList.takeWhile (· ≠ '=')
  let value := (argument.toList.drop name.length).tail?
  ([.watch, .scan].find? fun o : ValueOption => o.flag.toList = name).map fun o =>
    (o, value.map String.ofList)

/-- A text that can be a value. -/
def isValue (s : String) : Bool := s ≠ "" && !s.startsWith "-"

/-- What arguments ask for, after those that gave `o`. -/
def read (o : StartOptions) : List String → Except ArgumentError Invocation
  | [] => .ok (.run o)
  | a :: rest =>
    if a = "--help" ∨ a = "-h" then .ok .help
    else if a = "--version" ∨ a = "-V" then .ok .version
    else match option? a, rest with
      | none, _ => .error (.unexpected a)
      | some (option, some value), rest =>
        if value = "" then .error (.missingValue option)
        else match o.add option value with
          | .ok o => read o rest
          | .error e => .error e
      | some (option, none), [] => .error (.missingValue option)
      | some (option, none), value :: rest =>
        if isValue value then
          match o.add option value with
          | .ok o => read o rest
          | .error e => .error e
        else .error (.missingValue option)
termination_by args => args.length
decreasing_by all_goals (simp only [List.length_cons]; omega)

/-- What arguments ask for. -/
def ofArguments (args : List String) : Except ArgumentError Invocation := read .none args

/-- How the program is used. -/
def usage : String := "Usage: maiware-agent [OPTIONS]"

/-- What is said of the program when it is asked for help. -/
def helpText : String :=
  "mAIware endpoint agent\n\n" ++ usage ++ "\n\nOptions:\n" ++
  "      --watch <DIR>  Directory to watch (default: MAIWARE_WATCH_DIR or the downloads folder)\n" ++
  "      --scan <PATH>  Queue a file for scanning at startup (repeatable)\n" ++
  "  -h, --help         Print help\n" ++
  "  -V, --version      Print version"

/-- What is said when arguments are refused. -/
def refusal (e : ArgumentError) : String :=
  "error: " ++ e.message ++ "\n\n" ++ usage ++ "\n\nFor more information, try '--help'."

/-- The version of the program. -/
def versionNumber : String := "0.1.0"

end Invocation

end DownloadTriage
