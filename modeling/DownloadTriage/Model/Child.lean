import DownloadTriage.Host.Log
import DownloadTriage.Model.GraphImage
import DownloadTriage.Model.Response
import DownloadTriage.Process.Command

/-!
# A model as a child process

The model is a program that is given the file's path as its last argument and prints its answer.
-/

namespace DownloadTriage

/-- A model that is run as a child process. -/
structure ChildModel where
  program : String
  arguments : List (List UInt8)
  directory : Option Path
  timeoutMs : Nat
  deriving DecidableEq, Repr

namespace ChildModel

/-- How long a model may take unless told otherwise. -/
def defaultTimeoutMs : Nat := 120000

/-- The name of the script that runs a model. -/
def scriptName : String := "predict_single.py"

/-- The name of such a model in the log. -/
def name : String := "model"

/-- An interpreter running the script in a model's directory. -/
def ofScript (interpreter : String) (dir : Path) : ChildModel :=
  ⟨interpreter, [Utf8.bytes (dir.join (Path.ofText scriptName)).text], some dir, defaultTimeoutMs⟩

/-- The process that judges a file. -/
def launch (m : ChildModel) (p : Path) : Launch :=
  ⟨m.program, m.arguments ++ [p.bytes], m.directory⟩

/-- What became of the process that judges a file, or why there is no answer in it; with what is
logged. -/
def answer (m : ChildModel) (host : Processes) (p : Path) :
    Except ModelError ProcessResult × List LogLine :=
  match host (m.launch p) with
  | .error e => (.error (.unavailable (m.program ++ ": " ++ e.message)), [])
  | .ok r =>
    if r.durationMs.all (m.timeoutMs ≤ ·) then (.error (.timeout (m.timeoutMs * 1000000)), [])
    else if r.status.isSuccess then (.ok r, [])
    else (.error (.exitStatus (r.status.code?.map Int.ofNat)),
      [.error ("[AI] Model process error (" ++ r.status.text ++ "): " ++
        trim (Utf8.lossy r.errors))])

/-- The report of a file, or why there is none; with what is logged. What the report refers to is
looked for among the files that the process left. -/
def judge (m : ChildModel) (say : Response.Objections) (host : Processes) (p : Path)
    (fingerprint : Option Fingerprint) : Except ModelError Report × List LogLine :=
  let (answer, lines) := m.answer host p
  let report := answer.bind fun r =>
    (Response.read say (Utf8.lossy r.output)).map fun response =>
      response.report (GraphImage.shown r.files) p.fileName fingerprint
  (report, lines)

end ChildModel

end DownloadTriage
