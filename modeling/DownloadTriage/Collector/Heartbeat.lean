import DownloadTriage.Collector.Client

/-!
# The heartbeat loop

One heartbeat at the start, then one each period until the loop is stopped. A stop that comes while
a heartbeat is under way waits for it. A tick that comes more than a few milliseconds late moves the
ones after it. A period of no length has no ticks: the loop breaks down after its first heartbeat,
and says so when it is stopped.
-/

namespace DownloadTriage

/-- Where the loop is. -/
inductive HeartbeatPhase where
  /-- Not started yet. -/
  | fresh
  /-- The heartbeat of the start is under way. -/
  | starting (beat : Fiber Bool)
  /-- A later heartbeat is under way; the next tick is known. -/
  | beating (beat : Fiber Bool) (tick : Nat)
  /-- Waiting for a tick or a stop. -/
  | waiting (tick : Nat)
  /-- Broken down. -/
  | broken
  | stopped

/-- A heartbeat loop. -/
structure Heartbeat where
  client : Client
  periodMs : Nat
  phase : HeartbeatPhase
  stopRequested : Bool

namespace Heartbeat

/-- A loop that has not started. -/
def begin (client : Client) (periodMs : Nat) : Heartbeat := ⟨client, periodMs, .fresh, false⟩

/-- How late a tick may be without moving the next. -/
def toleranceMs : Nat := 5

/-- The tick after one that was due at a time and came at another. -/
def nextTick (period due now : Nat) : Nat :=
  if due + toleranceMs < now then now + period else due + period

/-- The loop ends. -/
def stopNow (h : Heartbeat) (w : World) : Heartbeat × World :=
  ({ h with phase := .stopped }, w.say [.info "[Heartbeat] Loop stopped"])

/-- What is said of a period of no length. -/
def fault : String := "task panicked with message \"`period` must be non-zero.\""

/-- Wait for a tick or a stop. A stop goes first. -/
def await (h : Heartbeat) (tick : Nat) (w : World) : Heartbeat × World :=
  if h.periodMs = 0 then ({ h with phase := .broken }, w)
  else if h.stopRequested then h.stopNow w
  else ({ h with phase := .waiting tick }, w)

/-- Go on once the heartbeat under way is over; `tick` is the tick after it. -/
def proceed (h : Heartbeat) (unfinished : Fiber Bool → HeartbeatPhase) (tick : Nat → Nat)
    (r : Fiber Bool × World) : Heartbeat × World :=
  match r.1 with
  | .finished _ => h.await (tick r.2.clock) r.2
  | beat => ({ h with phase := unfinished beat }, r.2)

/-- Start, go on or end, as the phase asks for. -/
def step (h : Heartbeat) (w : World) : Heartbeat × World :=
  match h.phase with
  | .fresh =>
    let w := w.say [.info ("[Heartbeat] Starting loop (every " ++
      toString (h.periodMs / 1000) ++ "s)")]
    h.proceed .starting (· + h.periodMs) ((h.client.heartbeat "startup").start w)
  | .starting beat => h.proceed .starting (· + h.periodMs) (beat.resume w)
  | .beating beat tick => h.proceed (.beating · tick) (fun _ => tick) (beat.resume w)
  | .waiting tick =>
    if h.stopRequested then h.stopNow w
    else if tick ≤ w.clock then
      let next := nextTick h.periodMs tick w.clock
      h.proceed (.beating · next) (fun _ => next) ((h.client.heartbeat "interval").start w)
    else (h, w)
  | .broken =>
    if h.stopRequested then
      ({ h with phase := .stopped }, w.say [.warn ("[Heartbeat] Loop ended abnormally: " ++ fault)])
    else (h, w)
  | .stopped => (h, w)

/-- Do what is due. A heartbeat that outlasts its period is followed by the next at once. -/
def run (h : Heartbeat) (w : World) : Heartbeat × World :=
  let r := h.step w
  r.1.step r.2

/-- When the loop has something to do. -/
def due (h : Heartbeat) (w : World) : Option Nat :=
  match h.phase with
  | .fresh => some w.clock
  | .starting beat => beat.due
  | .beating beat _ => beat.due
  | .waiting tick => if h.stopRequested then some w.clock else some tick
  | .broken => if h.stopRequested then some w.clock else none
  | .stopped => none

/-- Ask the loop to stop. -/
def requestStop (h : Heartbeat) : Heartbeat := { h with stopRequested := true }

/-- The loop has ended. -/
def isStopped (h : Heartbeat) : Bool :=
  match h.phase with
  | .stopped => true
  | _ => false

/-- Do what is due, with a loop that may not be there. -/
def runOpt (h : Option Heartbeat) (w : World) : Option Heartbeat × World :=
  match h with
  | none => (none, w)
  | some h => let r := h.run w; (some r.1, r.2)

/-- Do what is due, one loop after the other. -/
def runAll : List Heartbeat → World → List Heartbeat × World
  | [], w => ([], w)
  | h :: hs, w =>
    let r := h.run w
    let rest := runAll hs r.2
    (r.1 :: rest.1, rest.2)

/-- The loops with a new one. It takes the place of those before, which go on until they can
stop. -/
def replace (hs : List Heartbeat) (h : Heartbeat) : List Heartbeat := hs.map requestStop ++ [h]

/-- Heartbeat loops beside a program. -/
def machine : Machine (List Heartbeat) :=
  ⟨fun hs w => hs.foldl (fun t h => sooner t (h.due w)) none, runAll⟩

end Heartbeat

end DownloadTriage
