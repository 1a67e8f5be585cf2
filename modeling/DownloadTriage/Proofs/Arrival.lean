import DownloadTriage.Program.Rehearsal
import DownloadTriage.Proofs.Pending
import Mathlib.Data.List.Infix

/-!
# What becomes of an arrival

When the arrival of a file is taken, a wait for it is under way, which may have begun with an
earlier arrival. While the file is there, that wait ends only to report it. A wait that has already
seen that there is no file ends without a report, even if the file has come again meanwhile, and so
does every wait when watching ends.

* `Watching.Kept`: what becomes of a wait for a file that stays.
* `Watching.act_kept`: every move keeps it.
* `Watching.play_remembered`: no arrival is forgotten while its file is there.
* `Watching.play_forgotten`: two that are.
-/

namespace DownloadTriage

namespace Watching

/-- The file is waited for, the agent is being told of it, or was told after so many reports. -/
def Remembered (q : Watching) (p : Path) (reports : Nat) : Prop :=
  ∃ r ∈ q.paths ++ q.sending ++ q.ledger.reported.drop reports, p.sameWay r = true

instance (q : Watching) (p : Path) (reports : Nat) : Decidable (q.Remembered p reports) :=
  inferInstanceAs (Decidable (∃ r ∈ _, _))

/-- A wait for the path is under way, and has not seen that there is no file. -/
def Awaits (q : Watching) (p : Path) : Prop :=
  ∃ x, q.watcher = some x ∧ ∃ j ∈ x.jobs, j.path = p ∧ j.seen ≠ some none

/-- **What becomes of a wait** for a file that stays: it goes on until the agent is told, unless
watching ends or the agent stops to listen. -/
inductive Kept (q : Watching) (p : Path) (reports : Nat) : Prop where
  | awaited (h : q.Awaits p)
  | sending (h : p ∈ q.sending)
  | told (h : p ∈ q.ledger.reported.drop reports)
  | closed (h : q.watcher = none)
  | gone (h : q.listening = false)

variable {q : Watching} {x : Watcher} {p : Path} {reports : Nat}

theorem Kept.remembered (h : q.Kept p reports) {r : Path} (hr : r.sameWay p = true)
    (hopen : q.watcher ≠ none) (hl : q.listening = true) : q.Remembered r reports := by
  refine ⟨p, ?_, hr⟩
  cases h with
  | awaited h =>
    obtain ⟨x, hx, j, hj, rfl, -⟩ := h
    refine List.mem_append_left _ (List.mem_append_left _ ?_)
    rw [paths, hx]
    exact List.mem_map_of_mem hj
  | sending h => exact List.mem_append_left _ (List.mem_append_right _ h)
  | told h => exact List.mem_append_right _ h
  | closed h => exact absurd h hopen
  | gone h =>
    rw [hl] at h
    cases h

end Watching

/-! ## What a move leaves alone -/

namespace Watcher

/-- A change that is taken ends no wait and sends nothing. -/
theorem take_keeps (x : Watcher) (w : World) :
    x.jobs <+: (x.take w).1.jobs ∧ (x.take w).1.outgoing = x.outgoing := by
  have hsame : x.jobs <+: x.jobs ∧ x.outgoing = x.outgoing := ⟨List.prefix_refl _, rfl⟩
  rw [take]
  split
  · exact hsame
  · dsimp only
    split
    · exact hsame
    · split
      · exact hsame
      · rw [arrive]
        split
        · exact hsame
        · exact ⟨List.prefix_append .., rfl⟩

/-- A wait that goes on takes back nothing that is sent. -/
theorem outgoing_goOn (x : Watcher) (j : SettleJob) (now : Nat) :
    x.outgoing <+: (x.goOn j now).outgoing := by
  rcases x.goOn_eq j now with ⟨b, -, he⟩ | ⟨-, k, -, -, he⟩
  · rw [he, conclude]
    cases b
    · exact List.prefix_refl _
    · exact List.prefix_append ..
  · rw [he]

end Watcher

namespace Watching

variable {q : Watching} {p : Path} {reports : Nat}

/-- Once watching has ended it does not begin again. -/
theorem act_closed (h : q.watcher = none) (m : WatchMove) : (q.act m).watcher = none := by
  have hstep := q.act_step m
  generalize q.act m = r at hstep ⊢
  cases hstep with
  | notify hx | take hx | look hx | resume hx | report hx =>
    rw [h] at hx
    cases hx
  | close => rfl
  | _ => exact h

/-- An agent that stopped to listen does not begin again. -/
theorem act_gone (h : q.listening = false) (m : WatchMove) : (q.act m).listening = false := by
  have hstep := q.act_step m
  generalize q.act m = r at hstep ⊢
  cases hstep with
  | depart => rfl
  | _ => exact h

/-- What was reported stays so. -/
theorem act_reported (q : Watching) (m : WatchMove) :
    q.ledger.reported <+: (q.act m).ledger.reported := by
  have hstep := q.act_step m
  generalize q.act m = r at hstep ⊢
  cases hstep with
  | report =>
    dsimp only
    rw [WatchLedger.tell]
    split
    · exact List.prefix_append ..
    · exact List.prefix_refl _
  | _ => exact List.prefix_refl _

/-! ## What becomes of a wait -/

/-- A settled file that is not the one that the agent is told of now is told of later. -/
theorem act_sending (hle : reports ≤ q.ledger.reported.length) (h : p ∈ q.sending)
    (m : WatchMove) : (q.act m).Kept p reports := by
  have hout : ∀ x, q.watcher = some x → p ∈ x.outgoing := by
    intro x hx
    rw [sending, hx] at h
    exact h
  have hstep := q.act_step m
  generalize q.act m = r at hstep ⊢
  cases hstep with
  | idle => exact .sending h
  | pass ms files => exact .sending h
  | notify hx c =>
    have hmem := hout _ hx
    exact .sending hmem
  | look hx j =>
    have hmem := hout _ hx
    exact .sending hmem
  | take hx =>
    refine .sending ?_
    rw [sending, Option.map_some, Option.getD_some, (Watcher.take_keeps ..).2]
    exact hout _ hx
  | resume hx hj => exact .sending ((Watcher.outgoing_goOn ..).subset (hout _ hx))
  | @report x hx i r hr =>
    obtain ⟨hi, rfl⟩ := List.getElem?_eq_some_iff.1 hr
    have hsplit := (List.getElem_cons_eraseIdx_perm hi).mem_iff.2 (hout x hx)
    rcases List.mem_cons.1 hsplit with hnow | hlater
    · cases hl : q.listening with
      | false => exact .gone rfl
      | true =>
        refine .told ?_
        rw [WatchLedger.tell, if_pos rfl]
        dsimp only
        rw [List.drop_append_of_le_length hle]
        exact List.mem_append_right _ (List.mem_singleton.2 hnow)
    · exact .sending hlater
  | depart => exact .gone rfl
  | close => exact .closed rfl

/-- **A wait that has not seen that the file is gone** does not end while the file is there, but to
report it. -/
theorem act_awaits (h : q.Awaits p) (hfile : Settle.sizeAt q.world.files p ≠ none)
    (m : WatchMove) : (q.act m).Kept p reports := by
  obtain ⟨x, hx, j, hj, rfl, hseen⟩ := h
  have hsame : ∀ y, q.watcher = some y → x = y := fun y hy => Option.some.inj (hx.symm.trans hy)
  have hstep := q.act_step m
  generalize q.act m = r at hstep ⊢
  cases hstep with
  | idle => exact .awaited ⟨x, hx, j, hj, rfl, hseen⟩
  | pass ms files => exact .awaited ⟨x, hx, j, hj, rfl, hseen⟩
  | notify hy c =>
    obtain rfl := hsame _ hy
    exact .awaited ⟨_, rfl, j, hj, rfl, hseen⟩
  | take hy =>
    obtain rfl := hsame _ hy
    exact .awaited ⟨_, rfl, j, (x.take_keeps q.world).1.subset hj, rfl, hseen⟩
  | look hy k =>
    obtain rfl := hsame _ hy
    by_cases hk : j = k
    · refine .awaited ⟨_, rfl, _, List.mem_map.2 ⟨j, hj, if_pos hk⟩, Watcher.lookAt_path .., ?_⟩
      rw [Watcher.lookAt]
      split
      · exact fun hnone => hfile (Option.some.inj hnone)
      · exact hseen
    · exact .awaited ⟨_, rfl, j, List.mem_map.2 ⟨j, hj, if_neg hk⟩, rfl, hseen⟩
  | @resume y hy k hk =>
    obtain rfl := hsame _ hy
    by_cases hjk : j = k
    · subst hjk
      rcases x.goOn_eq j q.world.clock with ⟨b, hends, he⟩ | ⟨-, i, hi, hi', he⟩
      · obtain rfl : b = true := Watcher.settled_of_ends hends hseen
        refine .sending ?_
        rw [sending, Option.map_some, Option.getD_some, he]
        exact List.mem_append_right _ (List.mem_singleton_self _)
      · refine .awaited ⟨_, rfl, i, ?_, hi, hi' hseen⟩
        rw [he]
        exact List.mem_map.2 ⟨j, hj, if_pos rfl⟩
    · exact .awaited ⟨_, rfl, j, Watcher.mem_goOn hj hjk q.world.clock, rfl, hseen⟩
  | report hy hr =>
    obtain rfl := hsame _ hy
    exact .awaited ⟨_, rfl, j, hj, rfl, hseen⟩
  | depart => exact .gone rfl
  | close => exact .closed rfl

/-- **Every move** keeps a wait for a file that is there. -/
theorem act_kept (hle : reports ≤ q.ledger.reported.length) (h : q.Kept p reports)
    (hfile : Settle.sizeAt q.world.files p ≠ none) (m : WatchMove) : (q.act m).Kept p reports := by
  cases h with
  | awaited h => exact act_awaits h hfile m
  | sending h => exact act_sending hle h m
  | told h => exact .told (((q.act_reported m).drop reports).subset h)
  | closed h => exact .closed (act_closed h m)
  | gone h => exact .gone (act_gone h m)

/-- So does every run through which the file stays. -/
theorem goOn_kept (hle : reports ≤ q.ledger.reported.length) (h : q.Kept p reports)
    (moves : List WatchMove)
    (hfile : ∀ part, part <+: moves → Settle.sizeAt (q.goOn part).world.files p ≠ none) :
    (q.goOn moves).Kept p reports := by
  induction moves generalizing q with
  | nil => exact h
  | cons m moves ih =>
    have hnow := hfile [] (List.nil_prefix ..)
    have hle' := Nat.le_trans hle (q.act_reported m).length_le
    refine ih hle' (act_kept hle h hnow m) fun part hpart => ?_
    exact hfile (m :: part) (List.cons_prefix_cons.2 ⟨rfl, hpart⟩)

/-! ## Arrivals -/

/-- A path that arrived is waited for from then on, unless its name is ignored. -/
theorem Accounted.awaited (h : q.Accounted) {x : Watcher} (hx : q.watcher = some x) {c : Change}
    {cs : List Change} (hc : x.incoming = c :: cs) (ha : c.arrival = some p)
    (hp : p.isIgnored = false) :
    ∃ y, (q.act .take).watcher = some y ∧ ∃ j ∈ y.jobs, p.sameWay j.path = true := by
  have htake := (h.tidy x hx).take_eq q.world hc
  have hact : (q.act .take).watcher = some (x.take q.world).1 := by rw [act, hx]
  refine ⟨_, hact, ?_⟩
  rw [htake]
  cases hadmits : x.admits? c with
  | some r =>
    obtain rfl : p = r :=
      Option.some.inj (ha.symm.trans (Watcher.admits?_eq_some.1 hadmits).1)
    refine ⟨SettleJob.begin p q.world.clock, List.mem_append_right _ ?_, p.sameWay_refl⟩
    exact List.mem_singleton_self _
  | none =>
    -- it was not admitted because a wait for it is under way
    have hfound : ¬ ∀ j ∈ x.jobs, p.sameWay j.path = false := by
      intro hfree
      rw [Watcher.admits?_eq_some.2 ⟨ha, hp, hfree⟩] at hadmits
      cases hadmits
    obtain ⟨j, hfound⟩ := not_forall.1 hfound
    obtain ⟨hj, hsame⟩ := Classical.not_imp.1 hfound
    exact ⟨j, List.mem_append_left _ hj, Bool.of_not_eq_false hsame⟩

/-- **No arrival is forgotten while its file is there.** When an arrival is taken a wait for its
path is under way. Unless that wait has already seen that there is no file, it goes on until the
agent was told, as long as the file stays, watching goes on and the agent listens. -/
theorem play_remembered (dir : Path) (stability : Stability) (w : World) (moves : List WatchMove)
    {x : Watcher} {c : Change} {cs : List Change} {p : Path}
    (hx : (play dir stability w moves).watcher = some x) (hc : x.incoming = c :: cs)
    (ha : c.arrival = some p) (hp : p.isIgnored = false) :
    let q := play dir stability w (moves ++ [.take])
    ∃ y, q.watcher = some y ∧ ∃ j ∈ y.jobs, p.sameWay j.path = true ∧
      (j.seen ≠ some none → ∀ more,
        (∀ part, part <+: more → Settle.sizeAt (q.goOn part).world.files j.path ≠ none) →
        (q.goOn more).watcher ≠ none → (q.goOn more).listening = true →
        (q.goOn more).Remembered p q.ledger.reported.length) := by
  have h := play_accounted dir stability w moves
  have hplay : play dir stability w (moves ++ [.take]) =
      (play dir stability w moves).act .take := goOn_append ..
  dsimp only
  rw [hplay]
  obtain ⟨y, hy, j, hj, hsame⟩ := h.awaited hx hc ha hp
  refine ⟨y, hy, j, hj, hsame, fun hseen more hfile hopen hl => ?_⟩
  have hkept := goOn_kept (Nat.le_refl _) (.awaited ⟨y, hy, j, hj, rfl, hseen⟩) more hfile
  exact hkept.remembered hsame hopen hl

/-! ## One file -/

/-- A file in the root directory. -/
def leaf : Path := ⟨[0x61]⟩

/-- The system reports that it was created. -/
def leafCreated : Change := .change (.created .file) [leaf]

/-- The file is there. -/
def leafTree : FileTree := ⟨[([[0x61]], .file (.bytes #[0x78]))], []⟩

/-- The file is gone. -/
def bareTree : FileTree := ⟨[], []⟩

/-- A world in which the file is there at first. -/
def leafWorld : World :=
  .begin (Rehearsal.surroundings (fun _ => (.printed "", 0)) (fun _ => (.printed "", 0))
    (Decoder.scripted [])) leafTree

/-- The root directory is watched. -/
def watchLeaf (moves : List WatchMove) : Watching := play ⟨[0x2F]⟩ .usual leafWorld moves

theorem leaf_isIgnored : leaf.isIgnored = false := by decide +kernel

/-- The file is looked at, is the same two seconds later, and the agent is told of it. -/
def leafMoves : List WatchMove :=
  [.look (.begin leaf 0), .resume ⟨leaf, .begin 0, 0, some (some 1)⟩, .pass 2000 leafTree,
    .look ⟨leaf, ⟨some 1, 0⟩, 100, none⟩, .resume ⟨leaf, ⟨some 1, 0⟩, 100, some (some 1)⟩,
    .report 0]

/-- The file is remembered from its arrival on, at the end by a report. -/
theorem play_remembered_leaf :
    let q := watchLeaf ([.notify leafCreated] ++ [.take])
    leaf.isIgnored = false ∧
      (∀ part, part <+: leafMoves → Settle.sizeAt (q.goOn part).world.files leaf ≠ none) ∧
      (q.goOn leafMoves).watcher ≠ none ∧ (q.goOn leafMoves).listening = true ∧
      (q.goOn leafMoves).Remembered leaf q.ledger.reported.length := by
  intro q
  have hfile : ∀ part, part <+: leafMoves →
      Settle.sizeAt (q.goOn part).world.files leaf ≠ none := by
    simp only [← List.mem_inits]
    decide +kernel
  have hopen : (q.goOn leafMoves).watcher ≠ none := by
    rw [← Option.isSome_iff_ne_none]
    decide +kernel
  have hl : (q.goOn leafMoves).listening = true := by decide +kernel
  have hjobs : q.watcher.map (·.jobs) = some [.begin leaf 0] := by decide +kernel
  obtain ⟨y, hy, j, hj, -, hrest⟩ := play_remembered ⟨[0x2F]⟩ .usual leafWorld
    [.notify leafCreated] rfl rfl rfl leaf_isIgnored
  have hq : q.watcher = some y := hy
  rw [hq] at hjobs
  have hbegun : y.jobs = [.begin leaf 0] := Option.some.inj hjobs
  rw [hbegun, List.mem_singleton] at hj
  subst hj
  exact ⟨leaf_isIgnored, hfile, hopen, hl, hrest nofun leafMoves hfile hopen hl⟩

/-! ## Two that are forgotten -/

/-- **The arrival of a file is forgotten**: it is taken, from then on the file is there and does not
change, the agent listens, and after some moves nothing waits for the file and the agent was not
told of it. -/
structure Forgets (q : Watching) (p : Path) (more : List WatchMove) : Prop where
  arrives : (q.watcher.bind fun x => x.incoming.head?.bind Change.arrival) = some p
  admissible : p.isIgnored = false
  stays : ∃ n, ∀ part, part <+: more →
    Settle.sizeAt ((q.act .take).goOn part).world.files p = some n
  listens : ((q.act .take).goOn more).listening = true
  forgotten : ¬ ((q.act .take).goOn more).Remembered p q.ledger.reported.length

/-- The wait looks while the file is gone. Before it goes on the file comes again. -/
def raceMoves : List WatchMove :=
  [.notify leafCreated, .take, .pass 0 bareTree, .look (.begin leaf 0), .pass 0 leafTree,
    .notify leafCreated]

/-- An arrival while a wait has seen that there is no file, but has not gone on, is forgotten. So is
one that is waited for when watching ends. -/
theorem play_forgotten :
    Forgets (watchLeaf raceMoves) leaf [.resume ⟨leaf, .begin 0, 0, some none⟩] ∧
      Forgets (watchLeaf [.notify leafCreated]) leaf [.close none] := by
  have hstays : ∀ {q : Watching} {m : WatchMove},
      Settle.sizeAt (q.act .take).world.files leaf = some 1 →
      Settle.sizeAt ((q.act .take).act m).world.files leaf = some 1 →
      ∃ n, ∀ part, part <+: [m] →
        Settle.sizeAt ((q.act .take).goOn part).world.files leaf = some n := by
    intro q m hfirst hlast
    refine ⟨1, fun part hpart => ?_⟩
    rcases List.prefix_cons_iff.1 hpart with rfl | ⟨rest, rfl, hrest⟩
    · exact hfirst
    · rw [List.prefix_nil.1 hrest]
      exact hlast
  refine ⟨⟨?_, leaf_isIgnored, hstays ?_ ?_, ?_, ?_⟩, ⟨?_, leaf_isIgnored, hstays ?_ ?_, ?_, ?_⟩⟩
  all_goals decide +kernel

end Watching

end DownloadTriage
