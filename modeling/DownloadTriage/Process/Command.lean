import DownloadTriage.Files.Tree
import DownloadTriage.Process.Signal

/-!
# Child processes

A launch names a program, its arguments and the directory in which it runs. What becomes of it is
its output, how it ended, how long it took, and the files that it leaves.
-/

namespace DownloadTriage

/-- A program to start. Without a directory it runs where the agent does. -/
structure Launch where
  program : String
  arguments : List (List UInt8)
  directory : Option Path
  deriving DecidableEq, Repr

/-- Whether a name or argument holds a byte that ends texts. -/
def Launch.hasNul (l : Launch) : Bool :=
  (Utf8.bytes l.program).contains 0 || l.arguments.any (·.contains 0) ||
    l.directory.any (·.bytes.contains 0)

/-- How a process ended. -/
inductive ExitStatus where
  | code (n : Nat)
  | signal (n : Nat)
  deriving DecidableEq, Repr

namespace ExitStatus

/-- The text of a status. -/
def text : ExitStatus → String
  | code n => "exit status: " ++ toString n
  | signal n => "signal: " ++ toString n ++ ((Signal.name? n).map (" (SIG" ++ · ++ ")")).getD ""

/-- The code, unless a signal ended the process. -/
def code? : ExitStatus → Option Nat
  | code n => some n
  | signal _ => none

/-- Whether the process ended well. -/
def isSuccess : ExitStatus → Bool
  | code n => n = 0
  | signal _ => false

end ExitStatus

/-- What became of a process. One that never ends has no duration. -/
structure ProcessResult where
  output : List UInt8
  errors : List UInt8
  status : ExitStatus
  durationMs : Option Nat
  files : FileTree

/-- Why a process could not be started. -/
inductive LaunchError where
  | file (e : FileError)
  | permissionDenied
  | nulByte
  deriving DecidableEq, Repr

/-- The system's words for a refusal. -/
def LaunchError.message : LaunchError → String
  | file e => e.message
  | permissionDenied => "Permission denied (os error 13)"
  | nulByte => "nul byte found in provided data"

/-- The processes of a host. -/
abbrev Processes := Launch → Except LaunchError ProcessResult

end DownloadTriage
