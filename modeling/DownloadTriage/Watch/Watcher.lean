import DownloadTriage.Watch.Change
import DownloadTriage.Watch.Settle

/-!
# The directory watcher

A change that brings a file starts a wait for it, unless its name is never reported or a wait for it
is under way. A file that settles is reported once for its wait.

A wait goes on in small steps, between which other steps may fall: a look at the file, going on with
what was seen, and the report.
-/

namespace DownloadTriage

/-- A wait for one path. What was seen is kept until the wait goes on with it. -/
structure SettleJob where
  path : Path
  settle : Settle
  nextLook : Nat
  seen : Option (Option Nat)
  deriving DecidableEq, Repr

/-- A watcher. -/
structure Watcher where
  dir : Path
  stability : Stability
  /-- Changes not yet taken, in order. -/
  incoming : List Change
  /-- The paths that are waited for. -/
  pending : List Path
  jobs : List SettleJob
  /-- Settled files not yet reported. -/
  outgoing : List Path

/-- A watcher could not be started. -/
inductive WatchError where
  | missingDirectory (dir : Path)
  deriving DecidableEq, Repr

/-- What is said of a failure. -/
def WatchError.message : WatchError → String
  | missingDirectory dir => "Watch directory does not exist: " ++ dir.text

namespace Watcher

/-- Start to watch a directory. -/
def start (dir : Path) (stability : Stability) (w : World) :
    Except WatchError (Watcher × World) :=
  if w.files.isDirectory dir then
    .ok (⟨dir, stability, [], [], [], []⟩,
      w.say [.info ("[Monitor] Watching for new files in: " ++ dir.text)])
  else .error (.missingDirectory dir)

/-- A change is reported to the watcher. -/
def notify (x : Watcher) (c : Change) : Watcher := { x with incoming := x.incoming ++ [c] }

/-- A file arrived. -/
def arrive (x : Watcher) (p : Path) (now : Nat) : Watcher :=
  if p.isIgnored ∨ x.pending.any p.sameWay then x
  else { x with pending := p :: x.pending,
                jobs := x.jobs ++ [⟨p, Settle.begin now, now, none⟩] }

/-- Take one change. -/
def take (x : Watcher) (w : World) : Watcher × World :=
  match x.incoming with
  | [] => (x, w)
  | c :: cs =>
    let x := { x with incoming := cs }
    match c with
    | .fault reason => (x, w.say [.warn ("[Monitor] Watch error: " ++ reason)])
    | .change kind paths =>
      match kind.arrival paths with
      | none => (x, w)
      | some p => (x.arrive p w.clock, w)

/-- A wait looks at its file. -/
def lookAt (w : World) (j : SettleJob) : SettleJob :=
  if j.nextLook ≤ w.clock ∧ j.seen = none then
    { j with seen := some (Settle.sizeAt w.files j.path) }
  else j

/-- The watcher without a wait that is over. -/
def conclude (x : Watcher) (j : SettleJob) (settled : Bool) : Watcher :=
  { x with
    pending := x.pending.erase j.path
    jobs := x.jobs.erase j
    outgoing := if settled then x.outgoing ++ [j.path] else x.outgoing }

/-- A wait goes on with what it saw. -/
def goOn (x : Watcher) (j : SettleJob) (now : Nat) : Watcher :=
  match j.seen with
  | none => x
  | some seen =>
    match j.settle.look x.stability now seen with
    | .gone => x.conclude j false
    | .settled => x.conclude j true
    | .again s =>
      { x with
        jobs := x.jobs.map fun k =>
          if k = j then ⟨j.path, s, x.stability.nextLook now, none⟩ else k }

/-- Take all changes. -/
def takeAll : Nat → Watcher → World → Watcher × World
  | 0, x, w => (x, w)
  | n + 1, x, w => let r := x.take w; takeAll n r.1 r.2

/-- Every wait that is due looks at its file and goes on with what it saw. -/
def lookAround (x : Watcher) (w : World) : Watcher :=
  let x := { x with jobs := x.jobs.map (lookAt w) }
  x.jobs.foldl (fun x j => x.goOn j w.clock) x

/-- Do what is due; the settled files are those to report. Without a pause a wait is due again at
once. -/
def run (x : Watcher) (w : World) : Watcher × List Path × World :=
  let (x, w) := takeAll x.incoming.length x w
  let x := (x.lookAround w).lookAround w
  ({ x with outgoing := [] }, x.outgoing, w)

/-- When the watcher has something to do. -/
def due (x : Watcher) (w : World) : Option Nat :=
  if x.incoming ≠ [] then some w.clock
  else x.jobs.foldl (fun t j => sooner t (some j.nextLook)) none

/-- What is logged when watching ends; `fault` says why it could not be ended properly. -/
def closingLines (fault : Option String) : List LogLine :=
  (fault.map fun reason => .warn ("[Monitor] Failed to close watcher: " ++ reason)).toList ++
    [.info "[Monitor] File watcher stopped."]

end Watcher

/-! ## A watcher by itself -/

/-- A watcher and what it reported, with the time. -/
structure WatchRun where
  watcher : Option Watcher
  reported : List (Nat × Path)

namespace WatchRun

/-- Do what is due. -/
def run (x : WatchRun) (w : World) : WatchRun × World :=
  match x.watcher with
  | none => (x, w)
  | some v =>
    let (v, settled, w) := v.run w
    (⟨some v, x.reported ++ settled.map (w.clock, ·)⟩, w)

/-- A watcher as a machine. -/
def machine : Machine WatchRun := ⟨fun x w => x.watcher.bind (·.due w), run⟩

end WatchRun

end DownloadTriage
