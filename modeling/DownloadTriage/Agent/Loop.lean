import DownloadTriage.Scan.Pipeline

/-!
# The agent's loop

The agent queues files and scans them one at a time, in the order in which they came. Once a
shutdown is asked for no further scan begins; the loop is left when nothing is left to do, or at the
first look at the clock after a deadline.

The loop waits for one signal at a time. `Agent.step` says what a signal does, and ends with the
look at queue, scan under way and clock that comes before the next wait.
-/

namespace DownloadTriage

/-- What the agent is told. -/
inductive Command where
  /-- A file arrived and settled. -/
  | detected (path : Path)
  /-- A user asks for a scan. -/
  | scan (path : Path)
  /-- Begin the next scan if none is under way. -/
  | flush
  /-- Shut down and answer the ticket. -/
  | shutdown (ticket : Nat)
  deriving DecidableEq, Repr

/-- A shutdown that was asked for: its deadline, and the tickets to answer. -/
structure Closing where
  deadline : Nat
  tickets : List Nat
  deriving DecidableEq, Repr

/-- What ends a wait of the loop. -/
inductive Signal where
  /-- The scan under way is over. -/
  | finished
  | command (c : Command)
  /-- Nobody is left who could tell the agent anything. -/
  | orphaned
  /-- It is time to look at the clock. -/
  | tick
  deriving DecidableEq, Repr

/-- How the agent runs. -/
structure AgentSetup where
  pipeline : Pipeline
  shutdownWaitMs : Nat

/-- The agent between two signals. -/
structure Agent where
  queue : List ScanTask
  running : Option TaskRun
  closing : Option Closing
  orphaned : Bool
  /-- When the loop last looked at the clock. -/
  lookedAt : Nat
  /-- The loop was left. -/
  left : Bool

namespace Agent

/-- How long a shutdown waits unless told otherwise. -/
def defaultShutdownWaitMs : Nat := 15000

/-- The time between two looks at the clock once a shutdown was asked for. -/
def pollMs : Nat := 100

/-- An agent with nothing to do. -/
def begin : Agent := ⟨[], none, none, false, 0, false⟩

/-- Nothing is queued and no scan is under way. -/
def isIdle (a : Agent) : Bool := a.queue.isEmpty && a.running.isNone

/-- Queue a file and tell the listeners. -/
def enqueue (task : ScanTask) (a : Agent) (w : World) : Agent × World :=
  ({ a with queue := a.queue ++ [task] },
    w.mark (.emitted (.scanStarted task.filename task.path task.manual)))

/-- Begin the scan of the next file unless one is under way. -/
def startNext (l : Pipeline) (a : Agent) (w : World) : Agent × World :=
  match a.running, a.queue with
  | none, task :: rest =>
    let r := TaskRun.start l task w
    ({ a with queue := rest, running := some r.1 }, r.2)
  | _, _ => (a, w)

/-- A shutdown is asked for. Later ones only add their tickets. -/
def requestShutdown (waitMs : Nat) (ticket : Option Nat) (a : Agent) (w : World) :
    Agent × World :=
  match a.closing with
  | some c => ({ a with closing := some { c with tickets := c.tickets ++ ticket.toList } }, w)
  | none =>
    ({ a with closing := some ⟨w.clock + waitMs, ticket.toList⟩ },
      w.say [.info "[Monitor] Shutdown requested."])

/-- A path from the root, starting from the working directory. -/
def absolute (t : FileTree) (p : Path) : Path := (Path.ofNames t.workingDir).join p

/-- Do what a command says. -/
def handle (s : AgentSetup) (c : Command) (a : Agent) (w : World) : Agent × World :=
  match c with
  | .detected p =>
    a.enqueue (.ofPath p false) (w.say [.info ("[Monitor] Detected new file: " ++ p.text)])
  | .scan p =>
    let p := absolute w.files p
    a.enqueue (.ofPath p true) (w.say [.info ("[Monitor] Manually queued file: " ++ p.text)])
  | .flush => if a.closing.isSome then (a, w) else a.startNext s.pipeline w
  | .shutdown ticket => a.requestShutdown s.shutdownWaitMs (some ticket) w

/-- Do what a signal says. -/
def receive (s : AgentSetup) (signal : Signal) (a : Agent) (w : World) : Agent × World :=
  match signal with
  | .finished => ({ a with running := none }, w)
  | .command c => a.handle s c w
  | .orphaned =>
    { a with orphaned := true }.requestShutdown s.shutdownWaitMs none
      (w.say [.info "[Monitor] All agent handles dropped, shutting down."])
  | .tick => (a, w)

/-- A shutdown that was asked for is due. -/
def mayLeave (a : Agent) (now : Nat) : Bool :=
  match a.closing with
  | none => false
  | some c => a.isIdle || c.deadline ≤ now

/-- The look before a wait: begin the next scan unless the agent shuts down, and see whether the
loop is left. -/
def look (s : AgentSetup) (a : Agent) (w : World) : Agent × World :=
  let r := if a.closing.isNone then a.startNext s.pipeline w else (a, w)
  ({ r.1 with lookedAt := r.2.clock, left := r.1.mayLeave r.2.clock }, r.2)

/-- One turn of the loop. -/
def step (s : AgentSetup) (signal : Signal) (a : Agent) (w : World) : Agent × World :=
  let r := a.receive s signal w
  r.1.look s r.2

/-- What is logged when work is left behind. -/
def leftoverLines (a : Agent) : List LogLine :=
  if a.isIdle then []
  else [.error ("[Monitor] Shutdown timed out with pending work remaining (" ++
    toString a.queue.length ++ " queued, processing: " ++ toString a.running.isSome ++ ").")]

/-- The tickets to answer. -/
def tickets (a : Agent) : List Nat := (a.closing.map (·.tickets)).getD []

end Agent

end DownloadTriage
