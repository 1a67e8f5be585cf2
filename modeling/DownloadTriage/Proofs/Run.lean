import DownloadTriage.Agent.Service

/-!
# Runs of the agent

What happens to an agent from its outset on comes in **moves**: time passes and files change,
someone tells the agent something or lets it go, the loop begins, hears one signal or resumes its
task, watcher and heartbeats go on, and at last all is finished. Any sequence of moves is a run;
a move that is not possible changes nothing. The loop hears any signal that has come, in any order.

A **ledger** is kept beside the agent and never read by it: which files were asked for, and what was
seen of the slot of the task under way.

* `Run.play`: the run from an outset.
* `Service.Hears`: which signals have come.
-/

namespace DownloadTriage

/-! ## The loop and its signals -/

namespace Service

/-- The signal has come. A command comes in its turn, and the end of all who could tell the agent
something comes once, after the last command. -/
def Hears (s : Service) (w : World) : Signal → Prop
  | .finished => (s.agent.running.bind TaskRun.result?).isSome
  | .command c => s.inbox.head? = some c
  | .orphaned => s.inbox = [] ∧ s.handle = false ∧ s.watcher.isNone ∧ s.agent.orphaned = false
  | .tick => s.agent.closing.isSome ∧ s.agent.lookedAt + Agent.pollMs ≤ w.clock

instance (s : Service) (w : World) : (signal : Signal) → Decidable (s.Hears w signal)
  | .finished => inferInstanceAs (Decidable (_ = true))
  | .command _ => inferInstanceAs (Decidable (_ = _))
  | .orphaned => inferInstanceAs (Decidable (_ ∧ _))
  | .tick => inferInstanceAs (Decidable (_ ∧ _))

/-- A command that is heard is no longer on its way. -/
def taken (s : Service) : Signal → Service
  | .command _ => { s with inbox := s.inbox.tail }
  | _ => s

/-- The loop was left: drop the task under way, ask the heartbeats to stop. -/
def letGo (s : Service) (w : World) : Service × World :=
  ({ s with
    agent := { s.agent with running := none }
    heartbeat := s.heartbeat.map Heartbeat.requestStop },
    w.say s.agent.leftoverLines)

/-- The heartbeats take one step. -/
def beat (s : Service) (w : World) : Service × World :=
  match s.heartbeat with
  | none => (s, w)
  | some h => ({ s with heartbeat := some (h.step w).1 }, (h.step w).2)

end Service

/-! ## The ledger -/

/-- What is written down beside the agent. -/
structure Ledger where
  /-- The files asked for by commands that the loop heard, in order. -/
  asked : List ScanTask
  /-- The tasks that came into the slot, in order. -/
  begun : List ScanTask
  /-- The tasks that left the slot with a result, in order. -/
  finished : List (ScanTask × Option Report)
  /-- The task that left the slot without a result. -/
  givenUp : Option ScanTask

namespace Ledger

/-- Nothing is written down yet. -/
def blank : Ledger := ⟨[], [], [], none⟩

/-- Write down which file a signal asks for. -/
def hear (k : Ledger) (files : FileTree) : Signal → Ledger
  | .command (.detected p) => { k with asked := k.asked ++ [.ofPath p false] }
  | .command (.scan p) => { k with asked := k.asked ++ [.ofPath (Agent.absolute files p) true] }
  | _ => k

/-- Write down what came into the slot or left it. -/
def slot (k : Ledger) (before after : Option TaskRun) : Ledger :=
  match before, after with
  | none, some t => { k with begun := k.begun ++ [t.task] }
  | some t, none =>
    match t.result? with
    | some result => { k with finished := k.finished ++ [(t.task, result)] }
    | none => { k with givenUp := some t.task }
  | _, _ => k

@[simp] theorem slot_self (k : Ledger) (x : Option TaskRun) : k.slot x x = k := by
  cases x <;> rfl

theorem slot_asked (k : Ledger) (before after : Option TaskRun) :
    (k.slot before after).asked = k.asked := by
  unfold slot
  split
  · rfl
  · split <;> rfl
  · rfl

/-- What leaves the slot was not begun then. -/
theorem slot_none_begun (k : Ledger) (before : Option TaskRun) :
    (k.slot before none).begun = k.begun := by
  unfold slot
  split
  · contradiction
  · split <;> rfl
  · rfl

end Ledger

/-! ## Moves -/

/-- How an agent sets out. The heartbeats have a client and a period. -/
structure Outset where
  setup : AgentSetup
  heartbeat : Option (Client × Nat)
  watcher : Option Watcher
  world : World

/-- What can happen next. -/
inductive Move where
  | pass (ms : Nat) (files : FileTree)
  | send (c : Command)
  | release
  | notify (c : Change)
  | begin
  | hear (signal : Signal)
  | resume
  | watch
  | beat
  | finish

/-- The agent, its world and its ledger. -/
structure Run where
  service : Service
  world : World
  ledger : Ledger

namespace Run

/-- The run before its first move. -/
def start (o : Outset) : Run :=
  ⟨Service.begin o.setup (o.heartbeat.map fun h => Heartbeat.begin h.1 h.2) o.watcher, o.world,
    .blank⟩

/-- The loop is left if its look said so. -/
def leave (r : Run) : Run :=
  if r.service.agent.left then
    let x := r.service.letGo r.world
    ⟨x.1, x.2, r.ledger.slot r.service.agent.running x.1.agent.running⟩
  else r

/-- The agent becomes another. -/
def turn (r : Run) (x : Agent × World) : Run :=
  ⟨{ r.service with agent := x.1 }, x.2, r.ledger.slot r.service.agent.running x.1.running⟩

/-- The loop hears a signal: it does what the signal says, and looks before the next wait. -/
def hear (r : Run) (signal : Signal) : Run :=
  let r : Run := ⟨r.service.taken signal, r.world, r.ledger.hear r.world.files signal⟩
  let r := r.turn (r.service.agent.receive r.service.setup signal r.world)
  let r := r.turn (r.service.agent.look r.service.setup r.world)
  r.leave

/-- The loop begins. -/
def begin (r : Run) : Run :=
  let x := r.service.beginLoop r.world
  ⟨x.1, x.2, r.ledger.slot r.service.agent.running x.1.agent.running⟩

/-- The run after a move. -/
def act (r : Run) : Move → Run
  | .pass ms files => { r with world := { r.world with clock := r.world.clock + ms, files } }
  | .send c => { r with service := (r.service.send c).getD r.service }
  | .release => { r with service := r.service.release }
  | .notify c =>
    { r with service := { r.service with watcher := r.service.watcher.map (·.notify c) } }
  | .begin => r.begin
  | .hear signal =>
    if r.service.begun ∧ r.service.agent.left = false ∧ r.service.Hears r.world signal then
      r.hear signal
    else r
  | .resume => let x := r.service.resumeTask r.world; ⟨x.1, x.2, r.ledger⟩
  | .watch => let x := r.service.runWatcher r.world; ⟨x.1, x.2, r.ledger⟩
  | .beat => let x := r.service.beat r.world; ⟨x.1, x.2, r.ledger⟩
  | .finish =>
    if r.service.agent.left ∧ r.service.heartbeatEnded ∧ r.service.ended = false then
      let x := r.service.finish r.world
      ⟨x.1, x.2, r.ledger⟩
    else r

/-- The run after moves. -/
def goOn (r : Run) (moves : List Move) : Run := moves.foldl act r

/-- The run from an outset. -/
def play (o : Outset) (moves : List Move) : Run := (start o).goOn moves

theorem goOn_append (r : Run) (moves more : List Move) :
    r.goOn (moves ++ more) = (r.goOn moves).goOn more := List.foldl_append

theorem play_append (o : Outset) (moves more : List Move) :
    play o (moves ++ more) = (play o moves).goOn more := goOn_append ..

/-- What every move preserves holds along a run. -/
theorem goOn_induction {I : Run → Prop} (hI : ∀ r m, I r → I (r.act m)) {r : Run} (h : I r)
    (moves : List Move) : I (r.goOn moves) := by
  induction moves generalizing r with
  | nil => exact h
  | cons m moves ih => exact ih (hI r m h)

/-- One move after a run. -/
theorem play_concat (o : Outset) (moves : List Move) (m : Move) :
    play o (moves ++ [m]) = (play o moves).act m := play_append ..

end Run

end DownloadTriage
