/-!
# Signals

The numbers by which processes are told to end, to stop or to take notice.
-/

namespace DownloadTriage

/-- What a signal does to a process that has not said otherwise. -/
inductive SignalEffect where
  | ends
  | stops
  | nothing
  deriving DecidableEq, Repr

namespace Signal

/-- The signals with names, from 1 on. -/
def names : List String :=
  ["HUP", "INT", "QUIT", "ILL", "TRAP", "ABRT", "BUS", "FPE", "KILL", "USR1", "SEGV", "USR2",
    "PIPE", "ALRM", "TERM", "STKFLT", "CHLD", "CONT", "STOP", "TSTP", "TTIN", "TTOU", "URG",
    "XCPU", "XFSZ", "VTALRM", "PROF", "WINCH", "IO", "PWR", "SYS"]

/-- The largest number. -/
def largest : Nat := 64

/-- The name of a number. -/
def name? (n : Nat) : Option String := if n = 0 then none else names[n - 1]?

/-- The number of a name in either case. -/
def ofName? (s : String) : Option Nat :=
  (names.findIdx? (· = String.ofList (s.toList.map Char.toUpper))).map (· + 1)

/-- What a signal does. Those of a terminal do not stop a process that no terminal controls. -/
def effect (n : Nat) : SignalEffect :=
  if n = 19 then .stops
  else if [0, 17, 18, 20, 21, 22, 23, 28].contains n then .nothing
  else .ends

/-- A signal that no process can handle. -/
def isFinal (n : Nat) : Bool := n = 9 || n = 19

/-- What is said of a process that a signal ended. -/
def epitaph (n : Nat) : String :=
  let texts : List String :=
    ["Hangup", "Interrupt", "Quit", "Illegal instruction", "Trace/breakpoint trap", "Aborted",
      "Bus error", "Floating point exception", "Killed", "User defined signal 1",
      "Segmentation fault", "User defined signal 2", "Broken pipe", "Alarm clock", "Terminated",
      "Stack fault", "Child exited", "Continued", "Stopped (signal)", "Stopped",
      "Stopped (tty input)", "Stopped (tty output)", "Urgent I/O condition",
      "CPU time limit exceeded", "File size limit exceeded", "Virtual timer expired",
      "Profiling timer expired", "Window changed", "I/O possible", "Power failure",
      "Bad system call"]
  if n = 0 then "Unknown signal 0"
  else texts.getD (n - 1)
    (if 34 ≤ n then "Real-time signal " ++ toString (n - 34) else "Unknown signal " ++ toString n)

end Signal

end DownloadTriage
