import DownloadTriage.Dashboard.Notice
import DownloadTriage.Event.Bus
import DownloadTriage.Host.Log
import DownloadTriage.Http.Exchange
import DownloadTriage.Http.Status
import DownloadTriage.Text.Blank

/-!
# Publishing to a dashboard

Notices are queued and posted together: when there are enough of them, when a timer ticks, and once
more at the end. A batch leaves the queue before it is posted; one that fails is put back in front.
-/

namespace DownloadTriage

/-- Where and as whom notices are published. -/
structure DashboardTarget where
  endpoint : String
  key : Option String
  agentId : String
  deriving DecidableEq, Repr

/-- A batch that was posted, and whether it arrived. -/
structure Batch where
  notices : List Notice
  delivered : Bool

/-- A publisher: what is queued, and what was posted so far, in order. -/
structure Publisher where
  target : DashboardTarget
  queue : List Notice
  posted : List Batch

/-- What a publisher hears. -/
inductive PublisherInput where
  | event (e : Event) (stamp : Stamp)
  /-- That many events were lost. -/
  | lagged (lost : Nat)
  | tick

namespace DashboardTarget

/-- A target; blanks around the endpoint and an empty key mean nothing. -/
def ofSettings (endpoint : String) (key : Option String) (agentId : String) : DashboardTarget :=
  ⟨trim endpoint, key.filter (· ≠ ""), agentId⟩

end DashboardTarget

namespace Publisher

/-- How many notices make a batch. -/
def batchSize : Nat := 10

/-- How long a post may take. -/
def timeoutMs : Nat := 5000

/-- The time between two ticks. -/
def tickMs : Nat := 3000

/-- A publisher with nothing to say. -/
def begin (target : DashboardTarget) : Publisher := ⟨target, [], []⟩

/-- Queue the notice of an event. -/
def enqueue (p : Publisher) (e : Event) (stamp : Stamp) : Publisher :=
  { p with queue := p.queue ++ [.ofEvent stamp p.target.agentId e] }

/-- The request of a batch. -/
def request (p : Publisher) (batch : List Notice) : HttpRequest :=
  ⟨p.target.endpoint, p.target.key, .json (.obj [("events", .arr (batch.map Notice.json))]),
    timeoutMs⟩

/-- Why a batch did not arrive. -/
def failure? : Except HttpError HttpResponse → Option String
  | .error e => some e.message
  | .ok r => if isSuccess r.status then none else some ("status " ++ HttpStatus.text r.status)

/-- Take all that is queued. -/
def drain (p : Publisher) : List Notice × Publisher := (p.queue, { p with queue := [] })

/-- Put a notice in front of the queue. -/
def pushFront (p : Publisher) (n : Notice) : Publisher := { p with queue := n :: p.queue }

/-- Put a batch back ahead of anything queued meanwhile: its last notice is pushed first. -/
def restore (p : Publisher) (batch : List Notice) : Publisher := batch.reverse.foldl pushFront p

@[simp] theorem restore_cons (p : Publisher) (n : Notice) (batch : List Notice) :
    p.restore (n :: batch) = (p.restore batch).pushFront n := by
  simp [restore, List.foldl_append]

/-- A batch that was posted, and what became of it. -/
def record (p : Publisher) (batch : List Notice) (delivered : Bool) : Publisher :=
  { p with posted := p.posted ++ [⟨batch, delivered⟩] }

/-- Post all that is queued as one batch. One that fails is put back. -/
def flush (x : Exchange) (p : Publisher) : Bool × Publisher × List LogLine :=
  if p.queue.isEmpty then (true, p, [])
  else
    let (batch, p) := p.drain
    match failure? (x.send (p.request batch)) with
    | none => (true, p.record batch true, [])
    | some reason =>
      (false, (p.record batch false).restore batch,
        [.error ("[Dashboard] Failed to publish events: " ++ reason)])

/-- The event after which nothing follows. -/
def isLast : Event → Bool
  | .shutdown => true
  | _ => false

/-- What a publisher does with what it hears, where `xs` answers its posts in order. -/
def hear (xs : Nat → Exchange) (p : Publisher) : PublisherInput → Publisher × List LogLine
  | .event e stamp =>
    let p := p.enqueue e stamp
    if !isLast e && batchSize ≤ p.queue.length then (p.flush (xs p.posted.length)).2 else (p, [])
  | .lagged n =>
    (p, [.warn ("[Dashboard] Dropped " ++ toString n ++ " event(s), publisher lagging")])
  | .tick => (p.flush (xs p.posted.length)).2

/-- Whether hearing this ends the run. -/
def ends : PublisherInput → Bool
  | .event e _ => isLast e
  | _ => false

/-- Hear one thing after the other, up to the last event. -/
def hearAll (xs : Nat → Exchange) : Publisher → List PublisherInput → Publisher × List LogLine
  | p, [] => (p, [])
  | p, i :: is =>
    let (p, lines) := p.hear xs i
    if ends i then (p, lines)
    else
      let (p, more) := hearAll xs p is
      (p, lines ++ more)

/-- A whole run. -/
def run (xs : Nat → Exchange) (p : Publisher) (inputs : List PublisherInput) :
    Publisher × List LogLine :=
  let (p, lines) := hearAll xs p inputs
  let (_, p, last) := p.flush (xs p.posted.length)
  (p, [.info ("[Dashboard] Publishing events to " ++ p.target.endpoint)] ++ lines ++ last ++
    [.info "[Dashboard] Publisher closed"])

/-- What a listener hears of a bus on which nothing more is sent. -/
def inputsOf (stamp : Nat → Stamp) (b : Bus) (i : Nat) : Nat → List PublisherInput
  | 0 => []
  | n + 1 =>
    match b.receive i with
    | (.event e, b) => .event e (stamp n) :: inputsOf stamp b i n
    | (.lagged k, b) => .lagged k :: inputsOf stamp b i n
    | (.empty, _) => []

end Publisher

end DownloadTriage
