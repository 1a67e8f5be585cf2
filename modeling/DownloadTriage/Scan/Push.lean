import DownloadTriage.Program.Fiber

/-!
# Pushing the file

A copy of every scanned file may be pushed to an application beside the scan. How that goes is
logged and has no part in the report.
-/

namespace DownloadTriage

/-- Where files are pushed to. -/
structure PushTarget where
  url : String
  enabled : Bool
  deriving DecidableEq, Repr

/-- How a push went. -/
inductive PushOutcome where
  | skipped
  | sent (status : Nat)
  | failed (reason : String)
  deriving DecidableEq, Repr

namespace PushTarget

open Program

/-- How long a push may take. -/
def timeoutMs : Nat := 300000

/-- The bytes to push. A directory can be opened, and reads as nothing. -/
def payload (t : FileTree) (p : Path) : Except FileError (Array UInt8) :=
  (t.look p).map fun (_, n) =>
    match n with
    | .file c => c.data
    | .directory => #[]
    | .device => #[]

/-- A push failed. -/
def fail (reason : String) : Program PushOutcome := do
  log (.error ("[Push] AI app push failed: " ++ reason))
  pure (.failed reason)

/-- What follows from the answer to a push. -/
def conclude : Except HttpError HttpResponse → Program PushOutcome
  | .error e => fail e.message
  | .ok r =>
    if isSuccess r.status then do
      log (.info ("[Push] AI App Response: " ++ toString r.status ++ " " ++ trim r.body))
      pure (.sent r.status)
    else fail (toString r.status ++ " " ++ trim r.body)

/-- Push a file. -/
def push (target : PushTarget) (p : Path) (filename : String) : Program PushOutcome := do
  if target.enabled then
    log (.info ("[Push] Starting upload for " ++ filename ++ "..."))
    match payload (← request .files) p with
    | .error e => fail e.message
    | .ok data =>
      conclude (← request (.exchange ⟨target.url, none, .form filename data, timeoutMs⟩))
  else
    log (.info ("[Push] Skipping upload for " ++ filename ++ " (MAIWARE_SKIP_UPLOAD)."))
    pure .skipped

end PushTarget

end DownloadTriage
