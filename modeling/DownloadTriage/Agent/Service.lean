import DownloadTriage.Agent.Loop
import DownloadTriage.Collector.Heartbeat
import DownloadTriage.Watch.Watcher

/-!
# The whole agent

The loop with what runs beside it: the heartbeats, the watcher, and the commands on their way. When
the loop is left, the scan under way is dropped, the heartbeats are stopped, the watcher is closed,
the listeners are told, and the tickets are answered.
-/

namespace DownloadTriage

/-- What became of a request to shut down. -/
structure TicketReply where
  time : Nat
  ticket : Nat
  /-- The agent shut down; otherwise it was gone before. -/
  served : Bool
  deriving DecidableEq, Repr

/-- The agent and all that belongs to it. -/
structure Service where
  setup : AgentSetup
  agent : Agent
  heartbeat : Option Heartbeat
  watcher : Option Watcher
  /-- Commands on their way. -/
  inbox : List Command
  /-- Someone outside can still tell the agent something. -/
  handle : Bool
  replies : List TicketReply
  begun : Bool
  ended : Bool

namespace Service

/-- What is said to who tells a finished agent something. -/
def goneMessage : String := "Scan agent is no longer running"

/-- The agent before it runs. -/
def begin (setup : AgentSetup) (heartbeat : Option Heartbeat) (watcher : Option Watcher) :
    Service :=
  ⟨setup, Agent.begin, heartbeat, watcher, [], true, [], false, false⟩

/-- Tell the agent something; a finished agent gets nothing any more. -/
def send (s : Service) (c : Command) : Option Service :=
  if s.ended ∨ !s.handle then none else some { s with inbox := s.inbox ++ [c] }

/-- The last one outside lets the agent go. -/
def release (s : Service) : Service := { s with handle := false }

/-- Nobody is left who could tell the agent anything: no one outside, none who waits for a shutdown,
and no watcher. -/
def isOrphaned (s : Service) : Bool :=
  !s.handle && s.watcher.isNone && s.agent.tickets.isEmpty

/-- What the loop hears next, if it hears something now. -/
def nextSignal (s : Service) (w : World) : Option (Signal × Service) :=
  if (s.agent.running.bind TaskRun.result?).isSome then some (.finished, s)
  else match s.inbox with
    | c :: cs => some (.command c, { s with inbox := cs })
    | [] =>
      if s.isOrphaned && !s.agent.orphaned then some (.orphaned, s)
      else if s.agent.closing.isSome && s.agent.lookedAt + Agent.pollMs ≤ w.clock then
        some (.tick, s)
      else none

/-- Turn the loop until it has to wait or is left, at most that often. -/
def turnLoop : Nat → Service → World → Service × World
  | 0, s, w => (s, w)
  | n + 1, s, w =>
    if s.agent.left then (s, w)
    else match s.nextSignal w with
      | none => (s, w)
      | some (signal, s) =>
        let r := s.agent.step s.setup signal w
        turnLoop n { s with agent := r.1 } r.2

/-- More turns than the loop can make at once: every file on its way is taken, begun and finished,
and then there is at most the end of the channel and a tick. -/
def turns (s : Service) : Nat := 4 * (s.inbox.length + s.agent.queue.length) + 5

/-- The loop begins: a watched directory is announced. -/
def beginLoop (s : Service) (w : World) : Service × World :=
  if s.begun then (s, w)
  else
    let w := match s.watcher with
      | some x => w.mark (.emitted (.ready x.dir))
      | none => w
    let r := s.agent.look s.setup w
    ({ s with begun := true, agent := r.1 }, r.2)

/-- The scan under way goes on. -/
def resumeTask (s : Service) (w : World) : Service × World :=
  match s.agent.running with
  | none => (s, w)
  | some t =>
    let r := t.resume s.setup.pipeline w
    ({ s with agent := { s.agent with running := some r.1 } }, r.2)

/-- The watcher goes on; what settled is told to the loop. -/
def runWatcher (s : Service) (w : World) : Service × World :=
  match s.watcher with
  | none => (s, w)
  | some x =>
    let (x, settled, w) := x.run w
    ({ s with watcher := some x, inbox := s.inbox ++ settled.map .detected }, w)

/-- The heartbeats go on. -/
def runHeartbeat (s : Service) (w : World) : Service × World :=
  let r := Heartbeat.runOpt s.heartbeat w
  ({ s with heartbeat := r.1 }, r.2)

/-- The heartbeats have ended. -/
def heartbeatEnded (s : Service) : Bool := s.heartbeat.all (·.isStopped)

/-- The tickets that are still on their way. -/
def ticketsOnTheirWay (s : Service) : List Nat :=
  s.inbox.filterMap fun
    | .shutdown t => some t
    | _ => none

/-- All has ended: close the watcher, tell the listeners, answer the tickets. -/
def finish (s : Service) (w : World) : Service × World :=
  let w := if s.watcher.isSome then w.say (Watcher.closingLines none) else w
  let w := w.mark (.emitted .shutdown)
  let served := s.agent.tickets.map fun t => ⟨w.clock, t, true⟩
  let lost := s.ticketsOnTheirWay.map fun t => ⟨w.clock, t, false⟩
  ({ s with watcher := none, inbox := [], ended := true,
            replies := s.replies ++ served ++ lost }, w)

/-- The loop was left: drop the scan under way, stop the heartbeats. -/
def leave (s : Service) (w : World) : Service × World :=
  let w := w.say s.agent.leftoverLines
  let s := { s with
    agent := { s.agent with running := none }
    heartbeat := s.heartbeat.map Heartbeat.requestStop }
  s.runHeartbeat w

/-- The loop goes on, and is left if it may be. -/
def runLoop (s : Service) (w : World) : Service × World :=
  let (s, w) := s.beginLoop w
  let (s, w) := s.resumeTask w
  let (s, w) := turnLoop s.turns s w
  if s.agent.left then s.leave w else (s, w)

/-- Do what is due: heartbeats, watcher, loop. -/
def run (s : Service) (w : World) : Service × World :=
  if s.ended then (s, w)
  else
    let (s, w) := s.runHeartbeat w
    let (s, w) := s.runWatcher w
    let (s, w) := if s.agent.left then (s, w) else s.runLoop w
    if s.agent.left ∧ s.heartbeatEnded then s.finish w else (s, w)

/-- When the loop has something to do. -/
def loopDue (s : Service) (w : World) : Option Nat :=
  if s.agent.left then none
  else if !s.begun || !s.inbox.isEmpty || (s.isOrphaned && !s.agent.orphaned) then some w.clock
  else
    let poll := if s.agent.closing.isSome then some (s.agent.lookedAt + Agent.pollMs) else none
    sooner (s.agent.running.bind (·.due)) poll

/-- When something has to be done. -/
def due (s : Service) (w : World) : Option Nat :=
  if s.ended then none
  else
    sooner (s.heartbeat.bind (·.due w)) (sooner (s.watcher.bind (·.due w)) (s.loopDue w))

/-- The agent as a machine. -/
def machine : Machine Service := ⟨due, run⟩

end Service

end DownloadTriage
