import DownloadTriage.Decimal.Duration

/-!
# Failures of a model

Why a model gives no report, and what is said of it.
-/

namespace DownloadTriage

/-- Why a model gives no report. -/
inductive ModelError where
  | unavailable (reason : String)
  /-- The model's process ended with that status; none when a signal ended it. -/
  | exitStatus (status : Option Int)
  /-- The model took longer than that many nanoseconds. -/
  | timeout (nanoseconds : Nat)
  | invalidResponse (reason : String)
  /-- The model itself reported a failure. -/
  | reported (text : String)
  deriving DecidableEq, Repr

namespace ModelError

/-- What is said of a failure. -/
def message : ModelError → String
  | unavailable r => "AI model not available: " ++ r
  | exitStatus none => "AI model execution failed (exit code None)"
  | exitStatus (some n) => "AI model execution failed (exit code Some(" ++ toString n ++ "))"
  | timeout n => "AI model timed out after " ++ Duration.text n
  | invalidResponse r => "Invalid AI response format: " ++ r
  | reported t => "AI model error: " ++ t

/-- The name of a kind of failure. -/
def kind : ModelError → String
  | unavailable _ => "Unavailable"
  | exitStatus _ => "ExitStatus"
  | timeout _ => "Timeout"
  | invalidResponse _ => "InvalidResponse"
  | reported _ => "Backend"

end ModelError

end DownloadTriage
