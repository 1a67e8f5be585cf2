import DownloadTriage.Program.World

/-!
# Programs over time

A fiber is a program under way: finished, or waiting for a reply until a time. A machine is anything
that runs beside a program, such as a loop with timers. Time only passes while nothing is due.
-/

namespace DownloadTriage

/-- A program under way. -/
inductive Fiber (α : Type) where
  | finished (a : α)
  | waiting (wake : Nat) (r : Request) (next : Reply r → Program α)

/-- Run a program until it has to wait. -/
def Program.start {α : Type} : Program α → World → Fiber α × World
  | .done a, w => (.finished a, w)
  | .ask r next, w =>
    if w.latency r = 0 then (next (w.answer r).1).start (w.answer r).2
    else (.waiting (w.clock + w.latency r) r next, w)

namespace Fiber

variable {α : Type}

/-- The result, once there is one. -/
def result? : Fiber α → Option α
  | finished a => some a
  | waiting _ _ _ => none

/-- When the fiber goes on. -/
def due : Fiber α → Option Nat
  | finished _ => none
  | waiting wake _ _ => some wake

/-- Go on if it is time. -/
def resume : Fiber α → World → Fiber α × World
  | finished a, w => (finished a, w)
  | waiting wake r next, w =>
    if wake ≤ w.clock then (next (w.answer r).1).start (w.answer r).2
    else (waiting wake r next, w)

end Fiber

/-- The earlier of two times. -/
def sooner : Option Nat → Option Nat → Option Nat
  | some s, some t => some (min s t)
  | some s, none => some s
  | none, t => t

/-- Something that runs by itself: when it has something to do, and what it does then. -/
structure Machine (σ : Type) where
  due : σ → World → Option Nat
  run : σ → World → σ × World

namespace Machine

variable {σ : Type}

/-- A machine that never has anything to do. -/
def idle : Machine Unit := ⟨fun _ _ => none, fun s w => (s, w)⟩

/-- Run from a time to another. Time goes straight to where something is due next. What is due at
the end is left for what comes after. -/
def advance (m : Machine σ) (now target : Nat) (s : σ) (w : World) : σ × World :=
  let r := m.run s { w with clock := now }
  match m.due r.1 r.2 with
  | none => (r.1, { r.2 with clock := target })
  | some t =>
    let next := max t (now + 1)
    if next < target then m.advance next target r.1 r.2
    else (r.1, { r.2 with clock := target })
termination_by target - now
decreasing_by omega

end Machine

/-- Run a program to its end, beside a machine. -/
def Program.runBeside {α σ : Type} (m : Machine σ) :
    Program α → σ → World → α × σ × World
  | .done a, s, w => (a, s, w)
  | .ask r next, s, w =>
    if w.latency r = 0 then (next (w.answer r).1).runBeside m s (w.answer r).2
    else
      let (s, w) := m.advance w.clock (w.clock + w.latency r) s w
      (next (w.answer r).1).runBeside m s (w.answer r).2

end DownloadTriage
