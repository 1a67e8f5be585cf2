import DownloadTriage.Model.GraphImage
import DownloadTriage.Model.Response
import DownloadTriage.Pe.Wire
import DownloadTriage.Program.World

/-!
# Rehearsals

Surroundings that follow a script, and the trace of what was done as a document. A list of answers
is used up one by one; its last answer stays.
-/

namespace DownloadTriage

namespace Rehearsal

/-- The answer at a place of a list, the last one beyond its end. -/
def stay {α : Type} (answers : List α) (n : Nat) : Option α :=
  answers[n]?.or answers.getLast?

/-- Health by a list of candidates, where `*` stands for all. -/
def health (urls : List String) : Nat → String → Bool :=
  fun _ url => urls.contains "*" || urls.contains url

/-- Rounds of discovery, none when nothing is scripted. -/
def rounds (script : List (List String)) : Nat → List String := fun n => (stay script n).getD []

/-- Replies to posts; without a script nothing is reached. -/
def replies (script : List PostReply) : Nat → PostReply :=
  fun n => (stay script n).getD (.error (.network ""))

/-- How a scripted model answers: with a report, a failure, or something it printed. -/
inductive Answer where
  | report (r : Report)
  | failure (e : ModelError)
  | printed (output : String)

/-- The words of every reader here. -/
def objections : Response.Objections := ⟨fun _ => "<json>", fun _ => "<json>"⟩

/-- The answer to a question about a file. -/
def Answer.give (a : Answer) (t : FileTree) (p : Path) (fp : Option Fingerprint) :
    Except ModelError Report :=
  match a with
  | .report r => .ok r
  | .failure e => .error e
  | .printed output =>
    (Response.read objections output).map fun r => r.report (GraphImage.shown t) p.fileName fp

/-- A scripted model: an answer and how long it takes, by file. -/
abbrev Model := Path → Answer × Nat

/-- Surroundings without a network in which two models and a decoder follow a script. -/
def surroundings (model standIn : Model) (decoder : Decoder) : Surroundings where
  healthy := health []
  rounds := rounds []
  replies := replies []
  exchange := fun _ => Exchange.offline
  model := fun _ t p fp => (model p).1.give t p fp
  standIn := fun _ t p fp => (standIn p).1.give t p fp
  draws := fun _ => ⟨0, 0, 0⟩
  decoder := decoder
  latency := fun
    | .consult p _ => (model p).2
    | .standIn p _ => (standIn p).2
    | _ => 0

end Rehearsal

/-! ## The trace as a document -/

namespace World

/-- The world with what was done since the trace had that length. -/
def since (w : World) (n : Nat) : World := { w with trace := w.trace.drop n }

/-- An event with its time. -/
def timedEvent (m : Nat × Event) : Json :=
  match m.2.json? with
  | some (.obj ms) => .obj (ms ++ [("at", .nat m.1)])
  | _ => .obj [("unserializable", .str m.2.channel), ("at", .nat m.1)]

/-- A post with its time. -/
def timedPost (m : Nat × Post) : Json :=
  .obj [("at", .nat m.1), ("url", .str m.2.url), ("body", m.2.body),
    ("timeout_ms", .nat m.2.timeoutMs)]

/-- What decoders were asked. -/
def decoded (w : World) : List DecodeRequest :=
  w.trace.filterMap fun
    | (_, .decoded r) => some r
    | _ => none

/-- A member, unless its list is empty. -/
def listed (name : String) (vs : List Json) : List (String × Json) :=
  if vs.isEmpty then [] else [(name, .arr vs)]

/-- The trace as members of a document, and the time. -/
def traceMembers (w : World) : List (String × Json) :=
  listed "events" (w.events.map timedEvent) ++ listed "posts" (w.posts.map timedPost) ++
    listed "probes" (w.probes.map Json.str) ++
    (if w.discoveries = 0 then [] else [("discoveries", .nat w.discoveries)]) ++
    listed "log" (w.log.map fun l => .str l.shown) ++ [("t", .nat w.clock)]

end World

end DownloadTriage
