import DownloadTriage.Collector.Client
import DownloadTriage.Pe.Probe
import DownloadTriage.Pe.Snippet
import DownloadTriage.Scan.Judgement
import DownloadTriage.Scan.Push

/-!
# The scan of one file

A file that is there and not too large is pushed and scanned side by side. The scan takes its
fingerprint, probes it for an image, has an image judged, reports and uploads.
-/

namespace DownloadTriage

/-- A file to scan. -/
structure ScanTask where
  path : Path
  filename : String
  /-- A user asked for it. -/
  manual : Bool
  deriving DecidableEq, Repr

/-- The task of a path. -/
def ScanTask.ofPath (p : Path) (manual : Bool) : ScanTask := ⟨p, p.fileName, manual⟩

/-- How files are scanned. -/
structure Pipeline where
  client : Client
  standIn : StandIn
  target : PushTarget
  delayMs : Nat

namespace Pipeline

open Program

/-- From that size on a file is not scanned. -/
def sizeLimit : Nat := 50 * 1024 * 1024 * 1024

/-- The code at the entry point of the file at a path. -/
def code (p : Path) : Program (Option Pe.Snippet) := do
  match (← request .files).read p with
  | .error e =>
    log (.error ("[Disasm] Failed to read " ++ p.text ++ ": " ++ e.message))
    pure none
  | .ok data =>
    match Pe.snippetQuery data with
    | .error e => refuse e
    | .ok (h, query) =>
      match Pe.Snippet.ofAnswer h (← request (.decode query)) with
      | .error e => refuse e
      | .ok s => pure (some s)
where
  /-- There is no code to show. -/
  refuse (e : Pe.SnippetError) : Program (Option Pe.Snippet) := do
    log (.error ("[Disasm] Failed to generate disassembly: " ++ e.message))
    pure none

/-- The fingerprint of the file at a path, if it can be read. -/
def fingerprint (p : Path) : Program (Option Fingerprint) := do
  match Fingerprint.ofFile (← request .files) p with
  | .ok f => pure (some f)
  | .error e =>
    log (.error ("[Hash] " ++ e.message))
    pure none

/-- Whether the file at a path is an image. One that cannot be probed is none. -/
def probe (p : Path) : Program Bool := do
  match Pe.probeFile (← request .files) p with
  | .ok b => pure b
  | .error e =>
    log (.warn ("[PE Detection] Failed for " ++ p.text ++ ": " ++ Pe.probeFailure e))
    pure false

/-- The report with code, if there is some. -/
def withCode (s : Option Pe.Snippet) (r : Report) : Report :=
  match s with
  | some s => { r with codeInfo := some s.reportInfo, code := some s.lines }
  | none => r

/-- What is logged of the code. -/
def codeLine : Option Pe.Snippet → LogLine
  | some s => .info ("[Disasm] Captured " ++ toString s.lines.length ++
      " instructions from entry point")
  | none => .info "[Disasm] No disassembly available (empty result)"

/-- Tell the listeners of the code. -/
def announce (filename : String) : Option Pe.Snippet → Program Unit
  | some s => request (.emit (.code filename s.lines s.eventInfo))
  | none => pure ()

/-- The report of an image. -/
def scanImage (l : Pipeline) (task : ScanTask) (fp : Option Fingerprint) : Program Report := do
  let snippet := (← code task.path).filter fun s => s.lines ≠ []
  announce task.filename snippet
  log (.info ("[AI] Calling AI model for " ++ task.filename ++ "..."))
  let r ← Judgement.judge l.standIn task.path fp
  log (codeLine snippet)
  pure (withCode snippet { r with isPe := true })

/-- The wait before a scan. -/
def delay (l : Pipeline) : Program Unit :=
  if l.delayMs = 0 then pure () else request (.sleep l.delayMs)

/-- The report of a file, before it is given out. -/
def examine (l : Pipeline) (task : ScanTask) : Program Report := do
  log (.info ("[Scan] Scanning for " ++ task.filename ++ "..."))
  l.delay
  let fp ← fingerprint task.path
  let isPe ← probe task.path
  log (.info ("[PE Detection] " ++ task.filename ++ " is " ++
    (if isPe then "a PE file" else "not a PE file")))
  let r ← if isPe then l.scanImage task fp
    else pure (Report.notPe task.filename (fp.getD Fingerprint.unknown))
  log (.info ("[Scan] Scan completed. (Triggered by " ++ task.filename ++ ")"))
  pure r

/-- Scan a file, report and upload. -/
def scan (l : Pipeline) (task : ScanTask) : Program Report := do
  let r ← l.examine task
  request (.emit (.report r))
  let _ ← l.client.submit r
  pure r

/-- Whether a file is to be scanned. -/
def inspect (task : ScanTask) : Program Bool := do
  log (.info ("[Monitor] Processing: " ++ task.filename))
  match (← request .files).stat task.path with
  | .error e =>
    log (.error ("[Monitor] Error processing " ++ task.path.text ++ ": " ++ e.message))
    pure false
  | .ok s =>
    if sizeLimit ≤ s.size then
      log (.info ("[Monitor] File " ++ task.filename ++ " is large, skipping server push."))
      pure false
    else pure true

end Pipeline

/-! ## A task under way -/

/-- How far a task is. -/
inductive TaskStage where
  | inspecting (f : Fiber Bool)
  /-- Push and scan side by side. -/
  | working (push : Fiber PushOutcome) (scan : Fiber Report)
  /-- Over, with the report of a file that was scanned. -/
  | finished (result : Option Report)

/-- A task under way. -/
structure TaskRun where
  task : ScanTask
  stage : TaskStage

namespace TaskRun

/-- The stage of push and scan. -/
def join : Fiber PushOutcome → Fiber Report → TaskStage
  | .finished _, .finished r => .finished (some r)
  | push, scan => .working push scan

/-- Push and scan begin, the push first. -/
def work (l : Pipeline) (task : ScanTask) (w : World) : TaskStage × World :=
  let (push, w) := (l.target.push task.path task.filename).start w
  let (scan, w) := (l.scan task).start w
  (join push scan, w)

/-- Go on after the file was looked at. -/
def inspected (l : Pipeline) (task : ScanTask) (r : Fiber Bool × World) : TaskRun × World :=
  match r.1 with
  | .finished true => let s := work l task r.2; (⟨task, s.1⟩, s.2)
  | .finished false => (⟨task, .finished none⟩, r.2)
  | f => (⟨task, .inspecting f⟩, r.2)

/-- A task begins. -/
def start (l : Pipeline) (task : ScanTask) (w : World) : TaskRun × World :=
  inspected l task ((Pipeline.inspect task).start w)

/-- Do what is due. -/
def resume (l : Pipeline) (t : TaskRun) (w : World) : TaskRun × World :=
  match t.stage with
  | .inspecting f => inspected l t.task (f.resume w)
  | .working push scan =>
    let (push, w) := push.resume w
    let (scan, w) := scan.resume w
    (⟨t.task, join push scan⟩, w)
  | .finished r => (⟨t.task, .finished r⟩, w)

/-- When the task goes on. -/
def due (t : TaskRun) : Option Nat :=
  match t.stage with
  | .inspecting f => f.due
  | .working push scan => sooner push.due scan.due
  | .finished _ => none

/-- The task's result, once it is over. -/
def result? (t : TaskRun) : Option (Option Report) :=
  match t.stage with
  | .finished r => some r
  | _ => none

/-- A task by itself. -/
def machine (l : Pipeline) : Machine TaskRun := ⟨fun t _ => t.due, fun t w => t.resume l w⟩

end TaskRun

end DownloadTriage
