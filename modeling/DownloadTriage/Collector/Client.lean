import DownloadTriage.Collector.Locator

/-!
# The collector's client

Reports are uploaded with a bounded number of attempts; a heartbeat is sent once. Neither ever fails
towards its caller.
-/

namespace DownloadTriage

/-- Who uploads, and where to. -/
structure Client where
  identity : Identity
  locator : Locator

/-- How an upload ended. -/
inductive UploadOutcome where
  | delivered (attempts : Nat)
  | rejected (status attempts : Nat)
  | exhausted (attempts : Nat)
  /-- There was no document to post. -/
  | unencodable
  deriving DecidableEq, Repr

namespace Client

open Json Program

/-- The attempts of one upload. -/
def maxAttempts : Nat := 3

/-- How long an upload may take. -/
def uploadTimeoutMs : Nat := 5000

/-- How long a heartbeat may take. -/
def heartbeatTimeoutMs : Nat := 3000

/-- The wait after a failed attempt, doubled from attempt to attempt. -/
def backoffMs (attempt : Nat) : Nat := 1000 * Nat.pow 2 (attempt - 1)

/-- The document of an upload: the members of the report, and who sends it. -/
def uploadBody (i : Identity) (r : Report) : Except String Json :=
  (membersOf (Wire.ofReport r)).map fun ms =>
    obj (ms ++ [("agent_id", .str i.agentId), ("systemInfo", i.systemInfo)])

/-- The document of a heartbeat. -/
def heartbeatBody (i : Identity) (reason : String) : Json :=
  .obj [("agent_id", .str i.agentId), ("systemInfo", i.systemInfo), ("reason", .str reason)]

/-- Whether a reply ends an upload, and how. -/
def settled? (attempt : Nat) : PostReply → Option UploadOutcome
  | .ok status =>
    if isSuccess status then some (.delivered attempt)
    else if isRefusal status then some (.rejected status attempt)
    else none
  | .error _ => none

/-- What is logged of a reply to an upload. -/
def uploadLine : PostReply → LogLine
  | .ok status =>
    if isSuccess status then .info "[Server] Scan result uploaded successfully"
    else if isRefusal status then .warn ("[Server] Upload rejected: " ++ toString status)
    else .warn ("[Server] Upload failed: " ++ toString status)
  | .error e => .warn ("[Server] Failed to upload: " ++ e.message)

/-- One attempt to upload a document. -/
def attempt (c : Client) (body : Json) (number : Nat) : Program PostReply := do
  let base ← c.locator.resolve
  let url := base ++ "/api/submit-scan"
  log (.info ("[Server] Uploading scan to " ++ url ++ " as " ++ c.identity.agentId ++
    " (attempt " ++ toString number ++ "/" ++ toString maxAttempts ++ ")"))
  let reply ← request (.post ⟨url, body, uploadTimeoutMs⟩)
  log (uploadLine reply)
  pure reply

/-- Upload a document with that many attempts left. After a reply that settles nothing the
collector in use is given up. -/
def upload (c : Client) (body : Json) : Nat → Program UploadOutcome
  | 0 => do
    log (.error "[Server] All upload attempts failed. Scan result will be lost.")
    pure (.exhausted maxAttempts)
  | left + 1 => do
    let number := maxAttempts - left
    match settled? number (← c.attempt body number) with
    | some outcome => pure outcome
    | none =>
      Locator.invalidate
      if left ≠ 0 then
        log (.info ("[Server] Retrying in " ++ toString (backoffMs number) ++ "ms..."))
        request (.sleep (backoffMs number))
      c.upload body left

/-- Upload a report. -/
def submit (c : Client) (r : Report) : Program UploadOutcome := do
  request (.submit r)
  match uploadBody c.identity r with
  | .error reason =>
    log (.error ("[Server] " ++ (PostError.encoding reason).message))
    pure .unencodable
  | .ok body => c.upload body maxAttempts

/-- What is logged of a reply to a heartbeat. -/
def heartbeatLine (reason : String) : PostReply → LogLine
  | .ok status =>
    if isSuccess status then .info ("[Heartbeat] Client presence updated (" ++ reason ++ ")")
    else .warn ("[Heartbeat] Failed (" ++ toString status ++ ")")
  | .error e => .warn ("[Heartbeat] Error: " ++ e.message)

/-- A reply says yes. -/
def accepted : PostReply → Bool
  | .ok status => isSuccess status
  | .error _ => false

/-- Send one heartbeat; whether it was accepted. -/
def heartbeat (c : Client) (reason : String) : Program Bool := do
  let base ← c.locator.resolve
  let reply ← request (.post ⟨base ++ "/api/clients/heartbeat",
    heartbeatBody c.identity reason, heartbeatTimeoutMs⟩)
  log (heartbeatLine reason reply)
  pure (accepted reply)

end Client

end DownloadTriage
