import DownloadTriage.Program.Fiber

/-!
# Waiting for a file to settle

A file that is still being written is left alone until its size has held still for a while. It is
looked at again and again; a look that finds no regular file ends the wait.
-/

namespace DownloadTriage

/-- How long a size has to hold still, and how long to wait between looks. -/
structure Stability where
  thresholdMs : Nat
  pollMs : Nat
  deriving DecidableEq, Repr

namespace Stability

/-- Two seconds, with ten looks in each. -/
def usual : Stability := ⟨2000, 100⟩

/-- When to look again. -/
def nextLook (s : Stability) (now : Nat) : Nat := now + s.pollMs

end Stability

/-- What was seen of a file so far: the last size, and since when it has been that. -/
structure Settle where
  size : Option Nat
  since : Nat
  deriving DecidableEq, Repr

/-- What a look says. -/
inductive SettleVerdict where
  /-- There is no regular file. -/
  | gone
  /-- The size held still for long enough. -/
  | settled
  /-- Look again. -/
  | again (s : Settle)
  deriving DecidableEq, Repr

namespace Settle

/-- Nothing seen yet. -/
def begin (now : Nat) : Settle := ⟨none, now⟩

/-- A look at a time, where `seen` is the size of a regular file. -/
def look (stability : Stability) (now : Nat) (seen : Option Nat) (s : Settle) : SettleVerdict :=
  match seen with
  | none => .gone
  | some n =>
    if s.size ≠ some n then .again ⟨some n, now⟩
    else if stability.thresholdMs ≤ now - s.since then .settled
    else .again s

/-- The size of the regular file at a path. -/
def sizeAt (t : FileTree) (p : Path) : Option Nat :=
  match t.stat p with
  | .ok s => if s.isRegular then some s.size else none
  | .error _ => none

end Settle

/-! ## One wait -/

/-- A wait by itself: under way until the next look, or over. -/
inductive Wait where
  | waiting (next : Nat) (s : Settle)
  | finished (settled : Bool) (time : Nat)
  deriving DecidableEq, Repr

namespace Wait

/-- A wait that begins at a time. -/
def begin (now : Nat) : Wait := .waiting now (Settle.begin now)

/-- Look if it is time. -/
def look (stability : Stability) (p : Path) (x : Wait) (w : World) : Wait :=
  match x with
  | .finished b t => .finished b t
  | .waiting next s =>
    if next ≤ w.clock then
      match s.look stability w.clock (Settle.sizeAt w.files p) with
      | .gone => .finished false w.clock
      | .settled => .finished true w.clock
      | .again s => .waiting (stability.nextLook w.clock) s
    else .waiting next s

/-- Look whenever it is time. Without a pause it is time again at once; a third look at one time would
say what the second one said. -/
def run (stability : Stability) (p : Path) (x : Wait) (w : World) : Wait :=
  (x.look stability p w).look stability p w

/-- When to look next. -/
def due : Wait → Option Nat
  | waiting next _ => some next
  | finished _ _ => none

/-- A wait for the file at a path. -/
def machine (stability : Stability) (p : Path) : Machine Wait :=
  ⟨fun x _ => x.due, fun x w => (x.run stability p w, w)⟩

end Wait

end DownloadTriage
