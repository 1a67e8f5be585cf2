import DownloadTriage.Report.Wire

/-!
# Events

What the agent tells its listeners. An event has a channel and, unless it only says that something
is over, a payload. A payload with a path that is no text cannot be written.
-/

namespace DownloadTriage

/-- What the agent tells its listeners. -/
inductive Event where
  /-- The agent watches a directory. -/
  | ready (watchDir : Path)
  /-- A file was queued. -/
  | scanStarted (filename : String) (path : Path) (manual : Bool)
  /-- The code at a file's entry point. -/
  | code (filename : String) (lines : List CodeLine) (info : CodeInfo)
  /-- A scan is over. -/
  | report (r : Report)
  /-- The agent is over. -/
  | shutdown
  deriving DecidableEq, Repr

namespace Event

open Json Wire

/-- The name under which listeners find an event. -/
def channel : Event → String
  | ready _ => "ready"
  | scanStarted _ _ _ => "scan-started"
  | code _ _ _ => "scan-disassembly"
  | report _ => "scan-result"
  | shutdown => "shutdown-complete"

/-- What is said of a payload with a path that is no text. -/
def unwritable : String := "path contains invalid UTF-8 characters"

/-- The payload as members of the event's object; none when it cannot be written. -/
def payload? : Event → Option (List (String × Json))
  | ready dir => dir.text?.map fun d => [("payload", obj [("downloadPath", str d)])]
  | scanStarted name path manual => path.text?.map fun p =>
      [("payload", obj [("filename", str name), ("fullPath", str p), ("manual", bool manual)])]
  | code name lines info =>
      some [("payload", obj [("filename", str name), ("instructions", arr (lines.map ofCodeLine)),
        ("meta", ofCodeInfo info)])]
  | report r => some [("payload", ofReport r)]
  | shutdown => some []

/-- The event as it is written. -/
def json? (e : Event) : Option Json :=
  e.payload?.map fun ms => obj (("channel", str e.channel) :: ms)

/-- The payload as a dashboard gets it: null where there is none, and a note in place of one that
cannot be written. -/
def dashboardPayload (e : Event) : Json :=
  match e.payload? with
  | some ms => (ms.lookup "payload").getD null
  | none => obj [("error", str "Unserializable payload"), ("message", str unwritable)]

end Event

end DownloadTriage
