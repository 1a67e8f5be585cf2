import DownloadTriage.Process.Question
import DownloadTriage.Process.Tool.Edit
import DownloadTriage.Process.Tool.Reckon

/-!
# The tools of a host

The programs that are installed beside the shell, by their names.
-/

namespace DownloadTriage.Tool

open Script

/-- Ends well or badly. Asked about itself it prints a line. -/
def verdict (status : Nat) : Tool := fun c => do
  match c.args with
  | [a] =>
    if a = bytes "--help" ∨ a = bytes "--version" then printLine (bytes "Usage: " ++ c.name)
  | _ => pure ()
  endWith status

/-- Prints its arguments. -/
def echo : Tool := fun c => print (Print.echoProgram c.args)

/-- Prints its arguments by a format. -/
def printf : Tool := fun c => do
  match c.args with
  | [] => misused 1 c (bytes "missing operand")
  | format :: args =>
    let p := Print.formatted .program format args.length args
    print p.output
    p.complaints.forM (complain c)

/-- Answers a question. -/
def test : Tool := fun c => do
  let closes := lastName c.name = bytes "["
  if closes ∧ c.args.getLast? ≠ some (bytes "]") then complainWith 2 c (bytes "missing ']'")
  else
    match Question.answer (← files) (if closes then c.args.dropLast else c.args) with
    | .ok b => endWith (if b then 0 else 1)
    | .error e => complainWith 2 c e.message

/-- Prints the directory it runs in. -/
def pwd : Tool := fun c => do
  if !c.args.isEmpty then say c (bytes "ignoring non-option arguments")
  printLine (Path.ofNames (← files).workingDir).bytes

/-- The milliseconds in a unit of time. -/
def timeUnit? (bs : Bytes) : Option Nat :=
  [([], 1), (bytes "s", 1), (bytes "m", 60), (bytes "h", 3600), (bytes "d", 86400)].lookup bs

/-- A time in milliseconds; one that is endless has no number. -/
def duration? (bs : Bytes) : Option (Option Nat) :=
  if (bytes "infinity").isPrefixOf bs ∨ bs = bytes "inf" then some none
  else
    let (x, rest) := Print.fractionOf bs
    if x.isNegative ∨ rest.length = bs.length then none
    else (timeUnit? rest).map fun k => some (x.inUnits 3 * k)

/-- Waits. -/
def sleep : Tool :=
  withUsage 1 [] fun u c => do
    if u.operands.isEmpty then misused 1 c (bytes "missing operand")
    else
      match u.operands.filter fun o => (duration? o).isNone with
      | bad@(_ :: _) =>
        let wrong (o : Bytes) : Bytes := bytes "invalid time interval " ++ Quoted.always o
        bad.dropLast.forM fun o => complain c (wrong o)
        misused 1 c (wrong (bad.getLastD []))
      | [] =>
        let times := u.operands.filterMap duration?
        modify fun w =>
          { w with
            durationMs := times.foldl (fun sum t => do return (← sum) + (← t)) w.durationMs }

/-- Prints the values of variables. -/
def printenv : Tool := fun c => do
  match c.args with
  | [] => c.environment.forM fun v => printLine (v.1 ++ byte '=' :: v.2)
  | names => names.forM fun n =>
    match c.environment.lookup n with
    | some v => printLine v
    | none => endWith 1

/-- The tools by their names. -/
def all : List (String × Tool) :=
  [("true", verdict 0), ("false", verdict 1), ("echo", echo), ("printf", printf), ("test", test),
    ("[", test), ("pwd", pwd), ("sleep", sleep), ("printenv", printenv), ("cat", cat),
    ("tac", tac), ("rev", rev), ("head", head), ("tail", tail), ("wc", wc), ("tr", tr),
    ("sort", sort), ("uniq", uniq), ("cut", cut), ("tee", tee), ("seq", seq),
    ("basename", basename), ("dirname", dirname), ("base64", base64),
    ("sha256sum", digests fun bs => (Fingerprint.ofBytes bs).sha256),
    ("md5sum", digests fun bs => (Fingerprint.ofBytes bs).md5), ("rm", rm), ("rmdir", rmdir),
    ("mkdir", mkdir), ("touch", touch), ("mv", mv), ("cp", cp), ("ls", ls), ("grep", grep),
    ("sed", sed), ("expr", expr)]

/-- The tool of a name. -/
def ofName? (name : Bytes) : Option Tool := (all.find? fun t => bytes t.1 = name).map (·.2)

end DownloadTriage.Tool
