import DownloadTriage.Collector.LastKnown
import DownloadTriage.Program.Basic

/-!
# The world of a program

What lies around the agent decides how requests are answered; the world is what changes while they
are. All that is done leaves a mark in the trace, with its time.
-/

namespace DownloadTriage

/-- Something done. -/
inductive Deed where
  | logged (line : LogLine)
  | emitted (e : Event)
  | used (url : Option String)
  | discovered (servers : List String)
  | probed (url : String) (healthy : Bool)
  | posted (p : Post) (reply : PostReply)
  | exchanged (r : HttpRequest)
  | submitted (r : Report)
  | consulted (path : Path)
  | stoodIn (path : Path)
  | drawn
  | decoded (r : DecodeRequest)

/-- How what lies around the agent answers. The first argument of an answer counts the ones of its
kind before it. -/
structure Surroundings where
  healthy : Nat → String → Bool
  rounds : Nat → List String
  replies : Nat → PostReply
  exchange : Nat → Exchange
  model : Nat → FileTree → Path → Option Fingerprint → Except ModelError Report
  standIn : Nat → FileTree → Path → Option Fingerprint → Except ModelError Report
  draws : Nat → Draw
  decoder : Decoder
  /-- How many milliseconds a request takes. -/
  latency : Request → Nat

/-- The world at one time. -/
structure World where
  around : Surroundings
  clock : Nat
  files : FileTree
  endpoint : Option String
  kept : List (Nat × KeptRound)
  /-- All that was done and when, in order. -/
  trace : List (Nat × Deed)

namespace World

/-- The world at its start. -/
def begin (around : Surroundings) (files : FileTree) : World := ⟨around, 0, files, none, [], []⟩

/-- The world with one more mark in its trace. -/
def mark (w : World) (d : Deed) : World := { w with trace := w.trace ++ [(w.clock, d)] }

/-- The world with lines in its log. -/
def say (w : World) (lines : List LogLine) : World :=
  { w with trace := w.trace ++ lines.map fun l => (w.clock, .logged l) }

/-- What the listeners were told, and when. -/
def events (w : World) : List (Nat × Event) :=
  w.trace.filterMap fun
    | (t, .emitted e) => some (t, e)
    | _ => none

/-- What the log says. -/
def log (w : World) : List LogLine :=
  w.trace.filterMap fun
    | (_, .logged l) => some l
    | _ => none

/-- What was posted, and when. -/
def posts (w : World) : List (Nat × Post) :=
  w.trace.filterMap fun
    | (t, .posted p _) => some (t, p)
    | _ => none

/-- The candidates whose health was probed. -/
def probes (w : World) : List String :=
  w.trace.filterMap fun
    | (_, .probed u _) => some u
    | _ => none

/-- How many marks of a kind there are. -/
def count (w : World) (kind : Deed → Bool) : Nat := w.trace.countP fun m => kind m.2

/-- How many rounds of discovery there were. -/
def discoveries (w : World) : Nat :=
  w.count fun
    | .discovered _ => true
    | _ => false

/-- How many exchanges there were. -/
def exchanges (w : World) : Nat :=
  w.count fun
    | .exchanged _ => true
    | _ => false

/-- How often the model was asked. -/
def consultations (w : World) : Nat :=
  w.count fun
    | .consulted _ => true
    | _ => false

/-- How often something stood in for the model. -/
def standIns (w : World) : Nat :=
  w.count fun
    | .stoodIn _ => true
    | _ => false

/-- How many sample reports were drawn. -/
def draws (w : World) : Nat :=
  w.count fun
    | .drawn => true
    | _ => false

/-- The reply to a request, and the world then. -/
def answer (w : World) : (r : Request) → Reply r × World
  | .log l => ((), w.mark (.logged l))
  | .now => (w.clock, w)
  | .sleep _ => ((), w)
  | .endpoint => (w.endpoint, w)
  | .use url => ((), { w.mark (.used url) with endpoint := url })
  | .files => (w.files, w)
  | .record path url =>
    let (files, lines) := LastKnown.save w.files url path
    ((), { w.say lines with files })
  | .keptRound slot => (w.kept.lookup slot, w)
  | .keepRound slot round =>
    ((), { w with kept := (slot, round) :: w.kept.filter (·.1 ≠ slot) })
  | .discover =>
    let servers := w.around.rounds w.discoveries
    (servers, w.mark (.discovered servers))
  | .probe url =>
    let ok := w.around.healthy w.probes.length url
    (ok, w.mark (.probed url ok))
  | .post p =>
    let reply := w.around.replies w.posts.length
    (reply, w.mark (.posted p reply))
  | .exchange r => ((w.around.exchange w.exchanges).send r, w.mark (.exchanged r))
  | .emit e => ((), w.mark (.emitted e))
  | .submit r => ((), w.mark (.submitted r))
  | .consult path fp =>
    (w.around.model w.consultations w.files path fp, w.mark (.consulted path))
  | .standIn path fp =>
    (w.around.standIn w.standIns w.files path fp, w.mark (.stoodIn path))
  | .draw => (w.around.draws w.draws, w.mark .drawn)
  | .decode r => (w.around.decoder r, w.mark (.decoded r))

/-- How long a request takes. A sleep takes as long as it says. -/
def latency (w : World) : Request → Nat
  | .sleep ms => ms
  | r => w.around.latency r

end World

namespace Program

variable {α β : Type}

/-- The result of a program that runs alone while no time passes, and the world then. -/
def eval : Program α → World → α × World
  | .done a, w => (a, w)
  | .ask r next, w => (next (w.answer r).1).eval (w.answer r).2

theorem eval_bind (p : Program α) (f : α → Program β) (w : World) :
    (p.bind f).eval w = (f (p.eval w).1).eval (p.eval w).2 := by
  induction p generalizing w with
  | done a => rfl
  | ask r next ih => simp only [bind, eval, ih]

end Program

end DownloadTriage
