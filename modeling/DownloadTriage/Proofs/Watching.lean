import DownloadTriage.Watch.Watcher

/-!
# Runs of a watcher

What happens to a watcher comes in **moves**: time passes and files change, the system reports a
change, the watcher takes one, a wait looks at its file or goes on with what it saw, the agent is
told of a settled file. At any time the agent may stop to listen, and watching may end. Any sequence
of moves is a run; a move that is not possible changes nothing. So between a look and what follows
from it anything may happen.

A **ledger** is kept beside the watcher and never read by it: which arrivals began a wait, how the
waits ended, and what became of the settled files.

* `Watcher.admits?`: the arrivals that begin a wait, by the waits under way.
* `Watcher.Tidy`: the pending paths are those of the waits, which are for different files.
* `Watcher.Tidy.take_eq`, `Watcher.goOn_eq`: what taking a change and going on with a wait do then.
* `Watching.play`: the run from the start.
* `Watching.act_step`: what a move does.
-/

namespace DownloadTriage

namespace Path

variable {p q : Path}

theorem sameWay_iff : p.sameWay q = true ↔
    p.isAbsolute = q.isAbsolute ∧ p.startsHere = q.startsHere ∧ p.names = q.names := by
  rw [sameWay, Bool.and_eq_true, Bool.and_eq_true, beq_iff_eq, beq_iff_eq, beq_iff_eq, and_assoc]

theorem sameWay_refl (p : Path) : p.sameWay p = true := sameWay_iff.2 ⟨rfl, rfl, rfl⟩

theorem sameWay_symm (h : p.sameWay q = true) : q.sameWay p = true := by
  obtain ⟨habsolute, hhere, hnames⟩ := sameWay_iff.1 h
  exact sameWay_iff.2 ⟨habsolute.symm, hhere.symm, hnames.symm⟩

end Path

/-! ## Changes and waits -/

namespace Change

/-- The path that arrived, as far as the report says so. -/
def arrival : Change → Option Path
  | .change kind paths => kind.arrival paths
  | .fault _ => none

/-- What is logged of a report. -/
def lines : Change → List LogLine
  | .change _ _ => []
  | .fault reason => [.warn ("[Monitor] Watch error: " ++ reason)]

end Change

/-- A wait that begins at a time. -/
def SettleJob.begin (p : Path) (now : Nat) : SettleJob := ⟨p, Settle.begin now, now, none⟩

/-- Whether the file had settled, if that ends the wait. -/
def SettleVerdict.settled? : SettleVerdict → Option Bool
  | .gone => some false
  | .settled => some true
  | .again _ => none

namespace Watcher

/-- The path whose wait begins with a change: it arrived, its name may be reported, and nothing
waits for it. -/
def admits? (x : Watcher) (c : Change) : Option Path :=
  c.arrival.filter fun p => !p.isIgnored && !x.jobs.any (p.sameWay ·.path)

/-- Whether the file had settled, if the wait ends when it goes on. -/
def ends? (x : Watcher) (j : SettleJob) (now : Nat) : Option Bool :=
  j.seen.bind fun seen => (j.settle.look x.stability now seen).settled?

/-- One of the waits looks at its file. -/
def lookOnce (x : Watcher) (w : World) (j : SettleJob) : Watcher :=
  { x with jobs := x.jobs.map fun k => if k = j then lookAt w k else k }

/-- The paths that are waited for. -/
def paths (x : Watcher) : List Path := x.jobs.map (·.path)

/-- **The pending paths** are those of the waits, and no two waits are for one file. -/
structure Tidy (x : Watcher) : Prop where
  pending : x.pending.Perm x.paths
  distinct : x.paths.Pairwise fun p q => p.sameWay q = false

variable {x : Watcher}

theorem admits?_eq_some {c : Change} {p : Path} : x.admits? c = some p ↔
    c.arrival = some p ∧ p.isIgnored = false ∧ ∀ j ∈ x.jobs, p.sameWay j.path = false := by
  rw [admits?, Option.filter_eq_some_iff, Bool.and_eq_true, Bool.not_eq_true', Bool.not_eq_true',
    List.any_eq_false]
  simp only [Bool.not_eq_true]

/-- A path is pending if a wait for it is under way. -/
theorem Tidy.any_pending (h : x.Tidy) (p : Path) :
    x.pending.any p.sameWay = x.jobs.any (p.sameWay ·.path) := by
  rw [h.pending.any_eq, paths, List.any_map]
  rfl

/-- A file that arrives begins a wait, unless its name is ignored or it is waited for. -/
theorem Tidy.arrive_eq (h : x.Tidy) {c : Change} {p : Path} (ha : c.arrival = some p) (now : Nat) :
    x.arrive p now =
      { x with
        pending := (x.admits? c).toList ++ x.pending
        jobs := x.jobs ++ (x.admits? c).toList.map (SettleJob.begin · now) } := by
  have hadmits : x.admits? c =
      if p.isIgnored = true ∨ x.jobs.any (p.sameWay ·.path) = true then none else some p := by
    rw [admits?, ha, Option.filter_some]
    cases p.isIgnored <;> cases x.jobs.any (p.sameWay ·.path) <;> rfl
  rw [arrive, h.any_pending, hadmits]
  split
  · simp only [Option.toList_none, List.nil_append, List.map_nil, List.append_nil]
  · rfl

/-- **A change that is taken** begins at most one wait. Nothing else changes. -/
theorem Tidy.take_eq (h : x.Tidy) (w : World) {c : Change} {cs : List Change}
    (hc : x.incoming = c :: cs) : x.take w =
      ({ x with
          incoming := cs
          pending := (x.admits? c).toList ++ x.pending
          jobs := x.jobs ++ (x.admits? c).toList.map (SettleJob.begin · w.clock) },
        w.say c.lines) := by
  have hsay : w.say [] = w := by simp [World.say]
  rw [take, hc]
  cases c with
  | fault reason => simp [admits?, Change.arrival, Change.lines]
  | change kind paths =>
    rw [Change.lines, hsay]
    cases ha : kind.arrival paths with
    | none => simp [admits?, Change.arrival, ha]
    | some p =>
      have hrest : Tidy { x with incoming := cs } := ⟨h.pending, h.distinct⟩
      have harrive := hrest.arrive_eq (c := .change kind paths) ha w.clock
      dsimp only
      rw [ha]
      exact congrArg (·, w) harrive

/-- A wait that ends without having seen that there is no file has seen the file settle. -/
theorem settled_of_ends {j : SettleJob} {now : Nat} {b : Bool} (h : x.ends? j now = some b)
    (hseen : j.seen ≠ some none) : b = true := by
  obtain ⟨seen, hs, hverdict⟩ := Option.bind_eq_some_iff.1 h
  cases seen with
  | none => exact absurd hs hseen
  | some n =>
    rw [Settle.look] at hverdict
    split at hverdict
    · cases hverdict
    · split at hverdict
      · exact (Option.some.inj hverdict).symm
      · cases hverdict

/-- **A wait that goes on** ends, or is still a wait for the same path. -/
theorem goOn_eq (x : Watcher) (j : SettleJob) (now : Nat) :
    (∃ b, x.ends? j now = some b ∧ x.goOn j now = x.conclude j b) ∨
    (x.ends? j now = none ∧ ∃ k : SettleJob, k.path = j.path ∧
      (j.seen ≠ some none → k.seen ≠ some none) ∧
      x.goOn j now = { x with jobs := x.jobs.map fun i => if i = j then k else i }) := by
  have hsame : x.jobs.map (fun i => if i = j then j else i) = x.jobs := by
    refine (List.map_congr_left fun i _ => ?_).trans (List.map_id x.jobs)
    split
    · rename_i hi
      exact hi.symm
    · rfl
  rw [ends?, goOn]
  cases hs : j.seen with
  | none => exact .inr ⟨rfl, j, rfl, by simp [hs], by rw [hsame]⟩
  | some seen =>
    dsimp only [Option.bind_some]
    cases j.settle.look x.stability now seen with
    | gone => exact .inl ⟨false, rfl, rfl⟩
    | settled => exact .inl ⟨true, rfl, rfl⟩
    | again s => exact .inr ⟨rfl, ⟨j.path, s, x.stability.nextLook now, none⟩, rfl, nofun, rfl⟩

end Watcher

/-! ## The ledger -/

/-- What is written down beside a watcher. -/
structure WatchLedger where
  /-- The arrivals that began a wait, in order. -/
  accepted : List Path
  /-- The waits that ended, in order, and whether the file had settled. -/
  concluded : List (Path × Bool)
  /-- The settled files that the agent was told of, in order. -/
  reported : List Path
  /-- The settled files that the agent was not told of and never will be. -/
  lost : List Path
  /-- The waits that were given up when watching ended. -/
  abandoned : List Path

namespace WatchLedger

/-- Nothing is written down yet. -/
def blank : WatchLedger := ⟨[], [], [], [], []⟩

/-- The files that settled, in order. -/
def settled (k : WatchLedger) : List Path := (k.concluded.filter (·.2)).map (·.1)

/-- Write down the arrival that begins a wait. -/
def take (k : WatchLedger) (x : Watcher) : WatchLedger :=
  { k with accepted := k.accepted ++ (x.incoming.head?.bind x.admits?).toList }

/-- Write down how a wait ended, if it did. -/
def conclude (k : WatchLedger) (p : Path) (settled? : Option Bool) : WatchLedger :=
  { k with concluded := k.concluded ++ settled?.toList.map (p, ·) }

/-- Write down what became of a settled file. -/
def tell (k : WatchLedger) (listening : Bool) (p : Path) : WatchLedger :=
  if listening then { k with reported := k.reported ++ [p] } else { k with lost := k.lost ++ [p] }

/-- Write down what is given up when watching ends. -/
def close (k : WatchLedger) (x : Watcher) : WatchLedger :=
  { k with
    lost := k.lost ++ x.outgoing
    abandoned := k.abandoned ++ x.paths }

end WatchLedger

/-! ## Moves -/

/-- Something that happens to a watcher. -/
inductive WatchMove where
  /-- Time passes, after which the files are these. -/
  | pass (ms : Nat) (files : FileTree)
  /-- The system reports a change. -/
  | notify (c : Change)
  /-- The watcher takes a change. -/
  | take
  /-- A wait looks at its file. -/
  | look (j : SettleJob)
  /-- A wait goes on with what it saw. -/
  | resume (j : SettleJob)
  /-- The agent is told of one of the settled files. -/
  | report (i : Nat)
  /-- The agent stops to listen. -/
  | depart
  /-- Watching ends; `fault` says why it could not be ended properly. -/
  | close (fault : Option String)

/-- A watcher, until watching ends, and what lies around it. -/
structure Watching where
  watcher : Option Watcher
  world : World
  /-- The agent still takes what it is told. -/
  listening : Bool
  ledger : WatchLedger

namespace Watching

/-- Start to watch a directory, if it is there. -/
def start (dir : Path) (stability : Stability) (w : World) : Watching :=
  match Watcher.start dir stability w with
  | .ok (x, w) => ⟨some x, w, true, .blank⟩
  | .error _ => ⟨none, w, true, .blank⟩

/-- The paths that are waited for. -/
def paths (q : Watching) : List Path := (q.watcher.map (·.paths)).getD []

/-- The settled files that the agent is being told of. -/
def sending (q : Watching) : List Path := (q.watcher.map (·.outgoing)).getD []

/-- One move. -/
def act (q : Watching) : WatchMove → Watching
  | .pass ms files => { q with world := { q.world with clock := q.world.clock + ms, files } }
  | .notify c => { q with watcher := q.watcher.map (·.notify c) }
  | .take =>
    match q.watcher with
    | none => q
    | some x =>
      { q with
        watcher := some (x.take q.world).1
        world := (x.take q.world).2
        ledger := q.ledger.take x }
  | .look j => { q with watcher := q.watcher.map (·.lookOnce q.world j) }
  | .resume j =>
    match q.watcher with
    | none => q
    | some x =>
      if j ∈ x.jobs then
        { q with
          watcher := some (x.goOn j q.world.clock)
          ledger := q.ledger.conclude j.path (x.ends? j q.world.clock) }
      else q
  | .report i =>
    match q.watcher with
    | none => q
    | some x =>
      match x.outgoing[i]? with
      | none => q
      | some p =>
        { q with
          watcher := some { x with outgoing := x.outgoing.eraseIdx i }
          ledger := q.ledger.tell q.listening p }
  | .depart => { q with listening := false }
  | .close fault =>
    match q.watcher with
    | none => q
    | some x =>
      { q with
        watcher := none
        world := q.world.say (Watcher.closingLines fault)
        ledger := q.ledger.close x }

/-- Further moves. -/
def goOn (q : Watching) (moves : List WatchMove) : Watching := moves.foldl act q

/-- The run from the start. -/
def play (dir : Path) (stability : Stability) (w : World) (moves : List WatchMove) : Watching :=
  (start dir stability w).goOn moves

/-- **What a move does**: nothing, or what it says to a watcher that still watches. -/
inductive Step (q : Watching) : WatchMove → Watching → Prop where
  | idle (m : WatchMove) : Step q m q
  | pass (ms : Nat) (files : FileTree) :
    Step q (.pass ms files) { q with world := { q.world with clock := q.world.clock + ms, files } }
  | notify {x : Watcher} (hx : q.watcher = some x) (c : Change) :
    Step q (.notify c) { q with watcher := some (x.notify c) }
  | take {x : Watcher} (hx : q.watcher = some x) :
    Step q .take { q with
      watcher := some (x.take q.world).1
      world := (x.take q.world).2
      ledger := q.ledger.take x }
  | look {x : Watcher} (hx : q.watcher = some x) (j : SettleJob) :
    Step q (.look j) { q with watcher := some (x.lookOnce q.world j) }
  | resume {x : Watcher} (hx : q.watcher = some x) {j : SettleJob} (hj : j ∈ x.jobs) :
    Step q (.resume j) { q with
      watcher := some (x.goOn j q.world.clock)
      ledger := q.ledger.conclude j.path (x.ends? j q.world.clock) }
  | report {x : Watcher} (hx : q.watcher = some x) {i : Nat} {p : Path}
    (hp : x.outgoing[i]? = some p) :
    Step q (.report i) { q with
      watcher := some { x with outgoing := x.outgoing.eraseIdx i }
      ledger := q.ledger.tell q.listening p }
  | depart : Step q .depart { q with listening := false }
  | close {x : Watcher} (hx : q.watcher = some x) (fault : Option String) :
    Step q (.close fault) { q with
      watcher := none
      world := q.world.say (Watcher.closingLines fault)
      ledger := q.ledger.close x }

theorem Step.of_eq {q r : Watching} (h : r = q) (m : WatchMove) : q.Step m r := by
  rw [h]
  exact .idle m

theorem act_step (q : Watching) (m : WatchMove) : q.Step m (q.act m) := by
  cases hx : q.watcher with
  | none =>
    cases m with
    | pass ms files => exact .pass ms files
    | depart => exact .depart
    | notify c => exact .of_eq (by rw [act, hx, Option.map_none, ← hx]) _
    | look j => exact .of_eq (by rw [act, hx, Option.map_none, ← hx]) _
    | _ => exact .of_eq (by rw [act, hx]) _
  | some x =>
    cases m with
    | pass ms files => exact .pass ms files
    | depart => exact .depart
    | notify c =>
      rw [act, hx]
      exact .notify hx c
    | take =>
      rw [act, hx]
      exact .take hx
    | look j =>
      rw [act, hx]
      exact .look hx j
    | resume j =>
      rw [act, hx]
      dsimp only
      split
      · rename_i hj
        exact .resume hx hj
      · exact .idle _
    | report i =>
      rw [act, hx]
      dsimp only
      split
      · exact .idle _
      · rename_i p hp
        exact .report hx hp
    | close fault =>
      rw [act, hx]
      exact .close hx fault

theorem goOn_append (q : Watching) (moves more : List WatchMove) :
    q.goOn (moves ++ more) = (q.goOn moves).goOn more := List.foldl_append ..

/-- What holds at first and after every move holds along every run. -/
theorem goOn_induction {P : Watching → Prop} {q : Watching} (h : P q)
    (hact : ∀ q m, P q → P (q.act m)) (moves : List WatchMove) : P (q.goOn moves) := by
  induction moves generalizing q with
  | nil => exact h
  | cons m moves ih => exact ih (hact q m h)

end Watching

end DownloadTriage
