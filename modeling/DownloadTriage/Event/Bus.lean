import DownloadTriage.Event.Basic

/-!
# The event bus

Listeners read events at their own pace from a window of the latest ones. A listener that fell
behind is told once how many it lost and goes on with the oldest that is kept.
-/

namespace DownloadTriage

/-- The smallest power of two from `2 ^ k` on that is at least `n`. -/
def powerAbove (n : Nat) : Nat → Nat → Nat
  | 0, p => p
  | fuel + 1, p => if n ≤ p then p else powerAbove n fuel (2 * p)

/-- A bus: the size of its window, all that was sent, the latest first, and how far each listener
has read. A listener that left is none. -/
structure Bus where
  window : Nat
  sent : List Event
  readers : List (Option Nat)

/-- What a listener gets. -/
inductive Received where
  | event (e : Event)
  | lagged (lost : Nat)
  | empty
  deriving DecidableEq, Repr

namespace Bus

/-- The size of a window unless another is asked for. -/
def defaultCapacity : Nat := 256

/-- A bus without listeners. Its window is the next power of two. -/
def ofCapacity (capacity : Nat) : Bus := ⟨powerAbove capacity capacity 1, [], []⟩

/-- The bus with one more listener, who hears what is sent from now on. -/
def subscribe (b : Bus) : Bus := { b with readers := b.readers ++ [some b.sent.length] }

/-- The bus without a listener. -/
def unsubscribe (b : Bus) (i : Nat) : Bus := { b with readers := b.readers.set i none }

/-- The bus after an event was sent. -/
def emit (b : Bus) (e : Event) : Bus := { b with sent := e :: b.sent }

/-- How many of the events sent are no longer kept. -/
def dropped (b : Bus) : Nat := b.sent.length - b.window

/-- The event sent after `n` others. -/
def event? (b : Bus) (n : Nat) : Option Event :=
  if n < b.sent.length then b.sent[b.sent.length - 1 - n]? else none

/-- What a listener gets, and how far it has read then. -/
def next (b : Bus) (position : Nat) : Received × Nat :=
  if position < b.dropped then (.lagged (b.dropped - position), b.dropped)
  else match b.event? position with
    | some e => (.event e, position + 1)
    | none => (.empty, position)

/-- What a listener gets, and the bus then. -/
def receive (b : Bus) (i : Nat) : Received × Bus :=
  match b.readers.getD i none with
  | none => (.empty, b)
  | some position =>
    let (r, p) := b.next position
    (r, { b with readers := b.readers.set i (some p) })

end Bus

end DownloadTriage
