import DownloadTriage.Watch.Settle
import Mathlib.Data.List.Induction

/-!
# When a file has settled

What a wait says is a matter of what its looks found, and when. It ends at the first look that finds
no regular file, or that finds the size that all looks found since one a threshold before. The worlds
in which a wait goes on are any: the file may change between two looks in every way, and time may pass
as it likes. So the looks are known apart from the wait, as those of a wait that nothing ends.

* `Glance.LastRun`, `Glance.Held`: the last looks that found one size, and when that is long enough.
* `Settle.Describes.look`: what is remembered of the looks, after one more.
* `Wait.along_status`: a wait after some worlds, by the looks in them.
* `Wait.advance_along`: the wait as a machine goes on in such worlds.
* `Wait.along_settles`: when a wait ends, and what it says.
-/

namespace DownloadTriage

/-- What a look at a path found: the size of the regular file, if there was one. -/
structure Glance where
  time : Nat
  seen : Option Nat

/-! ## Runs of one size -/

namespace Glance

/-- **The last looks found one size**, from `first` on; the look before `first` found another one, or
there was none. -/
def LastRun (gs : List Glance) (first : Glance) (n : Nat) : Prop :=
  ∃ older run, gs = older ++ first :: run ∧ (∀ y ∈ first :: run, y.seen = some n) ∧
    ∀ y ∈ older.getLast?, y.seen ≠ some n

/-- **The size held still** until `g`: it is the one that the looks before found, since one that was
at least the threshold before. -/
def Held (stability : Stability) (before : List Glance) (g : Glance) : Prop :=
  ∃ first n, LastRun before first n ∧ g.seen = some n ∧
    first.time + stability.thresholdMs ≤ g.time

/-- No look ends a wait: each finds a regular file whose size has not held still. -/
def Undecided (stability : Stability) (gs : List Glance) : Prop :=
  ∀ before g, before ++ [g] <+: gs → g.seen ≠ none ∧ ¬ Held stability before g

variable {stability : Stability} {gs before before' : List Glance} {g g' first first' : Glance}
  {n n' : Nat}

theorem not_lastRun_nil : ¬ LastRun [] first n := by
  rintro ⟨older, run, he, -⟩
  simp at he

/-- One more look goes on with the last run, or begins one. -/
theorem lastRun_concat : LastRun (gs ++ [g]) first n ↔
    g.seen = some n ∧ (LastRun gs first n ∨ first = g ∧ ∀ y ∈ gs.getLast?, y.seen ≠ some n) := by
  constructor
  · rintro ⟨older, run, he, hrun, holder⟩
    rcases List.eq_nil_or_concat run with rfl | ⟨run, y, rfl⟩
    · obtain ⟨rfl, hg⟩ := List.append_inj' he rfl
      obtain rfl : g = first := List.singleton_inj.1 hg
      exact ⟨hrun g (List.mem_cons_self ..), .inr ⟨rfl, holder⟩⟩
    · rw [List.concat_eq_append, ← List.cons_append, ← List.append_assoc] at he
      obtain ⟨rfl, hg⟩ := List.append_inj' he rfl
      obtain rfl : g = y := List.singleton_inj.1 hg
      refine ⟨hrun g (by simp), .inl ⟨older, run, rfl, fun y hy => hrun y ?_, holder⟩⟩
      rw [List.concat_eq_append, ← List.cons_append]
      exact List.mem_append_left _ hy
  · rintro ⟨hg, ⟨older, run, rfl, hrun, holder⟩ | ⟨rfl, hlast⟩⟩
    · refine ⟨older, run ++ [g], by simp, fun y hy => ?_, holder⟩
      rw [← List.cons_append] at hy
      rcases List.mem_append.1 hy with hy | hy
      · exact hrun y hy
      · rw [List.mem_singleton.1 hy]
        exact hg
    · exact ⟨gs, [], rfl, by simpa using hg, hlast⟩

theorem LastRun.mem (h : LastRun gs first n) : first ∈ gs := by
  obtain ⟨older, run, rfl, -⟩ := h
  simp

/-- The last look found the size of the last run. -/
theorem LastRun.last (h : LastRun gs first n) : ∃ y ∈ gs.getLast?, y.seen = some n := by
  rcases List.eq_nil_or_concat gs with rfl | ⟨gs, y, rfl⟩
  · exact absurd h not_lastRun_nil
  · rw [List.concat_eq_append] at h ⊢
    exact ⟨y, by simp, (lastRun_concat.1 h).1⟩

/-- There is one last run. -/
theorem LastRun.unique (h : LastRun gs first n) (h' : LastRun gs first' n') :
    first = first' ∧ n = n' := by
  induction gs using List.reverseRecOn with
  | nil => exact absurd h not_lastRun_nil
  | append_singleton gs g ih =>
    obtain ⟨hg, hrun⟩ := lastRun_concat.1 h
    obtain ⟨hg', hrun'⟩ := lastRun_concat.1 h'
    obtain rfl : n = n' := Option.some.inj (hg.symm.trans hg')
    refine ⟨?_, rfl⟩
    -- a run that goes on is not begun anew
    have hno : ∀ {f : Glance}, LastRun gs f n → ¬ ∀ y ∈ gs.getLast?, y.seen ≠ some n := by
      intro f hf hall
      obtain ⟨y, hy, hseen⟩ := hf.last
      exact hall y hy hseen
    rcases hrun with hrun | ⟨rfl, hnew⟩ <;> rcases hrun' with hrun' | ⟨rfl, hnew'⟩
    · exact (ih hrun hrun').1
    · exact absurd hnew' (hno hrun)
    · exact absurd hnew (hno hrun')
    · rfl

/-- Where the last look found a regular file, there is a last run. -/
theorem exists_lastRun (h : ∃ y ∈ gs.getLast?, y.seen = some n) : ∃ first, LastRun gs first n := by
  induction gs using List.reverseRecOn with
  | nil =>
    obtain ⟨y, hy, -⟩ := h
    cases hy
  | append_singleton gs g ih =>
    have hg : g.seen = some n := by simpa using h
    by_cases hlast : ∃ y ∈ gs.getLast?, y.seen = some n
    · obtain ⟨first, hfirst⟩ := ih hlast
      exact ⟨first, lastRun_concat.2 ⟨hg, .inl hfirst⟩⟩
    · exact ⟨g, lastRun_concat.2 ⟨hg, .inr ⟨rfl, fun y hy hyn => hlast ⟨y, hy, hyn⟩⟩⟩⟩

/-- The last run began with a look from which on all found one size, or before it. -/
theorem LastRun.begins {run : List Glance} (h : LastRun (before ++ g :: run) first n)
    (hrun : ∀ y ∈ g :: run, y.seen = some n) : first = g ∨ first ∈ before := by
  induction run using List.reverseRecOn with
  | nil =>
    rcases (lastRun_concat.1 h).2 with h | ⟨rfl, -⟩
    · exact .inr h.mem
    · exact .inl rfl
  | append_singleton run z ih =>
    have hrun' : ∀ y ∈ g :: run, y.seen = some n := fun y hy => hrun y (by
      rw [← List.cons_append]
      exact List.mem_append_left _ hy)
    rw [← List.cons_append, ← List.append_assoc] at h
    rcases (lastRun_concat.1 h).2 with h | ⟨-, hnew⟩
    · exact ih h hrun'
    · obtain ⟨y, hy⟩ : ∃ y, y ∈ (g :: run).getLast? :=
        ⟨_, List.getLast?_eq_some_getLast (List.cons_ne_nil g run)⟩
      have hlast : y ∈ (before ++ g :: run).getLast? := by
        rw [List.getLast?_append, Option.mem_def.1 hy]
        rfl
      exact absurd (hrun' y (List.mem_of_getLast? hy)) (hnew y hlast)

/-- **A size that all looks found** for the threshold has held still. -/
theorem held_of_same {c : Glance} {run : List Glance} (hearly : ∀ y ∈ before, y.time ≤ c.time)
    (hrun : ∀ y ∈ c :: run, y.seen = some n) (hg : g.seen = some n)
    (hlong : c.time + stability.thresholdMs ≤ g.time) :
    Held stability (before ++ c :: run) g := by
  obtain ⟨z, hz⟩ : ∃ z, z ∈ (c :: run).getLast? :=
    ⟨_, List.getLast?_eq_some_getLast (List.cons_ne_nil c run)⟩
  have hlast : z ∈ (before ++ c :: run).getLast? := by
    rw [List.getLast?_append, Option.mem_def.1 hz]
    rfl
  obtain ⟨first, hfirst⟩ := exists_lastRun ⟨z, hlast, hrun z (List.mem_of_getLast? hz)⟩
  have htime : first.time ≤ c.time := by
    rcases hfirst.begins hrun with rfl | hmem
    · exact Nat.le_refl _
    · exact hearly first hmem
  exact ⟨first, n, hfirst, hg, by omega⟩

theorem undecided_nil : Undecided stability [] := by
  intro before g h
  simp at h

theorem undecided_concat : Undecided stability (gs ++ [g]) ↔
    Undecided stability gs ∧ g.seen ≠ none ∧ ¬ Held stability gs g := by
  constructor
  · exact fun h => ⟨fun before g' hp => h before g' (hp.trans (List.prefix_append ..)),
      h gs g List.prefix_rfl⟩
  · rintro ⟨hgs, hg⟩ before g' hp
    rcases List.prefix_concat_iff.1 hp with he | hp
    · obtain ⟨rfl, hg'⟩ := List.append_inj' he rfl
      obtain rfl : g' = g := List.singleton_inj.1 hg'
      exact hg
    · exact hgs before g' hp

/-! ## The look that ends a wait -/

/-- **A look ends the wait**: none before it did, and it finds that the file has settled, or that there
is none. -/
structure EndsAt (stability : Stability) (gs before : List Glance) (g : Glance) (settled : Bool) :
    Prop where
  looked : before ++ [g] <+: gs
  undecided : Undecided stability before
  ends : if settled then Held stability before g else g.seen = none

theorem Held.seen (h : Held stability before g) : g.seen ≠ none := by
  obtain ⟨first, n, -, hg, -⟩ := h
  rw [hg]
  exact Option.some_ne_none n

theorem EndsAt.decided {b : Bool} (h : EndsAt stability gs before g b) :
    ¬ (g.seen ≠ none ∧ ¬ Held stability before g) := by
  intro hno
  have hends := h.ends
  cases b with
  | false => exact hno.1 hends
  | true => exact hno.2 hends

/-- A look that ends the wait is none of looks that do not. -/
theorem EndsAt.not_undecided {b : Bool} (h : EndsAt stability gs before g b) :
    ¬ Undecided stability gs := fun hgs => h.decided (hgs before g h.looked)

theorem EndsAt.mono {b : Bool} {more : List Glance} (h : EndsAt stability gs before g b)
    (hp : gs <+: more) : EndsAt stability more before g b := ⟨h.looked.trans hp, h.undecided, h.ends⟩

/-- There is one look at which the wait ends. -/
theorem EndsAt.unique {b b' : Bool} (h : EndsAt stability gs before g b)
    (h' : EndsAt stability gs before' g' b') : before = before' ∧ g = g' ∧ b = b' := by
  have hshort : ∀ {as bs : List Glance} {x y : Glance} {c : Bool}, EndsAt stability gs as x c →
      Undecided stability bs → bs ++ [y] <+: gs → ¬ (as ++ [x]).length ≤ bs.length := by
    intro as bs x y c ha hb hp hle
    -- the shorter beginning would lie among looks that do not end the wait
    have hpre := List.prefix_of_prefix_length_le ha.looked ((List.prefix_append _ _).trans hp) hle
    exact ha.decided (hb as x hpre)
  have hle := hshort h h'.undecided h'.looked
  have hle' := hshort h' h.undecided h.looked
  have hlen : (before ++ [g]).length = (before' ++ [g']).length := by
    simp only [List.length_append, List.length_singleton] at hle hle' ⊢
    omega
  have heq := (List.prefix_of_prefix_length_le h.looked h'.looked (Nat.le_of_eq hlen)).eq_of_length hlen
  obtain ⟨rfl, hg⟩ := List.append_inj' heq rfl
  obtain rfl : g = g' := List.singleton_inj.1 hg
  refine ⟨rfl, rfl, ?_⟩
  have hends := h.ends
  have hends' := h'.ends
  cases b <;> cases b'
  · rfl
  · exact absurd hends (Held.seen hends')
  · exact absurd hends' (Held.seen hends)
  · rfl

/-! ## What was seen before a size held still -/

/-- The looks come one after the other, at least that far apart. -/
def Spaced (pause : Nat) (gs : List Glance) : Prop :=
  gs.Pairwise fun y z => y.time + pause ≤ z.time

variable {pause : Nat}

theorem Spaced.le (h : Spaced pause (before ++ [g])) {y : Glance} (hy : y ∈ before) :
    y.time + pause ≤ g.time :=
  (List.pairwise_append.1 h).2.2 y hy g (List.mem_singleton_self g)

theorem Spaced.of_prefix (h : Spaced pause gs) (hp : before <+: gs) : Spaced pause before :=
  List.Pairwise.sublist hp.sublist h

/-- **Within the threshold** before a look that finds that the size held still, no look found another
size. With a pause between looks that is so at the very threshold too. -/
theorem Held.window (h : Held stability before g) (hspaced : Spaced pause (before ++ [g]))
    {y : Glance} (hy : y ∈ before) (hnear : g.time < y.time + stability.thresholdMs ∨
      0 < pause ∧ g.time ≤ y.time + stability.thresholdMs) : y.seen = g.seen := by
  obtain ⟨first, n, ⟨older, run, rfl, hrun, -⟩, hg, hlong⟩ := h
  rcases List.mem_append.1 hy with hold | hin
  · have hbefore : y.time + pause ≤ first.time :=
      (List.pairwise_append.1 (List.pairwise_append.1 hspaced).1).2.2 y hold first
        (List.mem_cons_self ..)
    omega
  · exact (hrun y hin).trans hg.symm

/-- **A change restarts the window**: after a look that found another size than the one before it, the
threshold has to pass, and there has to be one more look. -/
theorem Held.restart (h : Held stability before g) (hspaced : Spaced pause (before ++ [g]))
    {front later : List Glance} {y z : Glance} (he : before ++ [g] = front ++ y :: z :: later)
    (hne : y.seen ≠ z.seen) : z.time + stability.thresholdMs ≤ g.time ∧ later ≠ [] := by
  obtain ⟨first, n, ⟨older, run, rfl, hrun, -⟩, hg, hlong⟩ := h
  have hsame : ∀ x ∈ first :: run ++ [g], x.seen = some n := by
    intro x hx
    rcases List.mem_append.1 hx with hx | hx
    · exact hrun x hx
    · rw [List.mem_singleton.1 hx]
      exact hg
  have hbefore : ∀ x ∈ older, x.time + pause ≤ first.time := fun x hx =>
    (List.pairwise_append.1 (List.pairwise_append.1 hspaced).1).2.2 x hx first
      (List.mem_cons_self ..)
  -- both looks of the change among the last run would have found one size
  have hin : ¬ (y ∈ first :: run ++ [g] ∧ z ∈ first :: run ++ [g]) := fun hyz =>
    hne ((hsame y hyz.1).trans (hsame z hyz.2).symm)
  rw [List.append_assoc] at he
  rcases List.append_eq_append_iff.1 he with ⟨as, rfl, hrest⟩ | ⟨as, rfl, hrest⟩
  · exact absurd ⟨by rw [hrest]; simp, by rw [hrest]; simp⟩ hin
  · match as with
    | [] =>
      rw [List.nil_append] at hrest
      exact absurd ⟨by rw [← hrest]; simp, by rw [← hrest]; simp⟩ hin
    | [a] =>
      obtain ⟨-, hrest⟩ := List.cons.inj hrest
      obtain ⟨rfl, hlater⟩ := List.cons.inj hrest
      exact ⟨hlong, by rw [hlater]; simp⟩
    | a :: b :: as =>
      obtain ⟨-, hrest⟩ := List.cons.inj hrest
      obtain ⟨rfl, hlater⟩ := List.cons.inj hrest
      have hz := hbefore z (by simp)
      exact ⟨by omega, by rw [hlater]; simp⟩

end Glance

open Glance

/-! ## What is remembered -/

/-- **What is remembered of looks** is the size that the last one found, and since when it is that. -/
def Settle.Describes (s : Settle) (gs : List Glance) : Prop :=
  match s.size with
  | none => gs = []
  | some n => ∃ first, LastRun gs first n ∧ s.since = first.time

/-- **One more look** ends the wait, or is remembered. -/
theorem Settle.Describes.look {s : Settle} {gs : List Glance} (h : s.Describes gs)
    (stability : Stability) {g : Glance} (ht : ∀ y ∈ gs, y.time ≤ g.time) :
    match s.look stability g.time g.seen with
    | .gone => g.seen = none
    | .settled => Held stability gs g
    | .again s' => (g.seen ≠ none ∧ ¬ Held stability gs g) ∧ s'.Describes (gs ++ [g]) := by
  unfold Settle.look
  cases hseen : g.seen with
  | none => rfl
  | some n =>
    dsimp only
    by_cases hsize : s.size = some n
    · rw [Describes, hsize] at h
      obtain ⟨first, hrun, hsince⟩ := h
      have hbefore := ht first hrun.mem
      rw [if_neg (not_not.2 hsize)]
      by_cases hlong : stability.thresholdMs ≤ g.time - s.since
      · rw [if_pos hlong]
        exact ⟨first, n, hrun, hseen, by omega⟩
      · rw [if_neg hlong]
        refine ⟨⟨Option.some_ne_none n, ?_⟩, ?_⟩
        · rintro ⟨first', n', hrun', -, hlong'⟩
          obtain ⟨rfl, -⟩ := hrun.unique hrun'
          omega
        · rw [Describes, hsize]
          exact ⟨first, lastRun_concat.2 ⟨hseen, .inl hrun⟩, hsince⟩
    · rw [if_pos hsize]
      have hnew : ∀ y ∈ gs.getLast?, y.seen ≠ some n := by
        intro y hy hyn
        unfold Describes at h
        cases hs : s.size with
        | none =>
          rw [hs] at h
          rw [show gs = [] from h] at hy
          cases hy
        | some m =>
          rw [hs] at h
          obtain ⟨first, hrun, -⟩ := h
          obtain ⟨z, hz, hzm⟩ := hrun.last
          obtain rfl : y = z := Option.some.inj (hy.symm.trans hz)
          exact hsize (hs.trans (hzm.symm.trans hyn))
      refine ⟨⟨Option.some_ne_none n, ?_⟩, g, lastRun_concat.2 ⟨hseen, .inr ⟨rfl, hnew⟩⟩, rfl⟩
      rintro ⟨first', n', hrun', hn', -⟩
      obtain ⟨y, hy, hyn⟩ := hrun'.last
      exact hnew y hy (hyn.trans (hn'.symm.trans hseen))

/-! ## A wait in worlds, one after the other -/

namespace Wait

/-- The wait after it looked in every world in which it was time to. -/
def along (stability : Stability) (p : Path) (x : Wait) (ws : List World) : Wait :=
  ws.foldl (look stability p) x

/-- When a look is due after some looks: a pause after the last one. -/
def nextTime (stability : Stability) (start : Nat) (gs : List Glance) : Nat :=
  (gs.getLast?.map fun g => stability.nextLook g.time).getD start

/-- What a look finds in a world. -/
def glance (p : Path) (w : World) : Glance := ⟨w.clock, Settle.sizeAt w.files p⟩

/-- **The looks** of a wait that nothing ends: in each world in which one is due. -/
def glances (stability : Stability) (p : Path) (start : Nat) (ws : List World) : List Glance :=
  ws.foldl (fun gs w => if nextTime stability start gs ≤ w.clock then gs ++ [glance p w] else gs) []

/-- A wait after some looks: it is over if one of them ended it, and otherwise remembers them. -/
def Status (stability : Stability) (start : Nat) (gs : List Glance) : Wait → Prop
  | waiting next s => next = nextTime stability start gs ∧ Undecided stability gs ∧ s.Describes gs
  | finished b t => ∃ before g, EndsAt stability gs before g b ∧ t = g.time

variable {stability : Stability} {p : Path} {start : Nat} {gs : List Glance} {x : Wait} {w : World}

theorem along_append (x : Wait) (ws us : List World) :
    x.along stability p (ws ++ us) = (x.along stability p ws).along stability p us :=
  List.foldl_append ..

theorem glances_concat (ws : List World) : glances stability p start (ws ++ [w]) =
    if nextTime stability start (glances stability p start ws) ≤ w.clock then
      glances stability p start ws ++ [glance p w]
    else glances stability p start ws := List.foldl_append ..

theorem nextTime_concat (g : Glance) :
    nextTime stability start (gs ++ [g]) = g.time + stability.pollMs := by
  simp [nextTime, Stability.nextLook]

/-- **A pause lies between two looks.** -/
theorem glances_spaced (stability : Stability) (p : Path) (start : Nat) (ws : List World) :
    Spaced stability.pollMs (glances stability p start ws) := by
  induction ws using List.reverseRecOn with
  | nil => exact .nil
  | append_singleton ws w ih =>
    rw [glances_concat]
    split
    · rename_i hdue
      refine List.pairwise_append.2 ⟨ih, List.pairwise_singleton .., fun y hy z hz => ?_⟩
      obtain rfl := List.mem_singleton.1 hz
      -- the look before is the last one, or before that
      rcases List.eq_nil_or_concat (glances stability p start ws) with he | ⟨gs, g, he⟩
      · rw [he] at hy
        cases hy
      · rw [he, List.concat_eq_append] at hy ih hdue
        rw [nextTime_concat] at hdue
        rcases List.mem_append.1 hy with hy | hy
        · have hyg := (List.pairwise_append.1 ih).2.2 y hy g (List.mem_singleton_self g)
          exact Nat.le_trans hyg (Nat.le_trans (Nat.le_add_right ..) hdue)
        · rw [List.mem_singleton.1 hy]
          exact hdue
    · exact ih

theorem Status.look (h : Status stability start gs x)
    (ht : nextTime stability start gs ≤ w.clock → ∀ y ∈ gs, y.time ≤ w.clock) :
    Status stability start
      (if nextTime stability start gs ≤ w.clock then gs ++ [glance p w] else gs)
      (x.look stability p w) := by
  cases x with
  | finished b t =>
    obtain ⟨before, g, hends, ht⟩ := h
    refine ⟨before, g, hends.mono ?_, ht⟩
    split
    · exact List.prefix_append ..
    · exact List.prefix_rfl
  | waiting next s =>
    obtain ⟨rfl, hundecided, hdescribes⟩ := h
    by_cases hdue : nextTime stability start gs ≤ w.clock
    · rw [Wait.look, if_pos hdue, if_pos hdue]
      have hlook := hdescribes.look stability (g := glance p w) (ht hdue)
      cases hverdict : s.look stability w.clock (Settle.sizeAt w.files p) with
      | gone =>
        have hgone : (glance p w).seen = none := by simpa only [glance, hverdict] using hlook
        exact ⟨gs, glance p w, ⟨List.prefix_rfl, hundecided, hgone⟩, rfl⟩
      | settled =>
        have hheld : Held stability gs (glance p w) := by simpa only [glance, hverdict] using hlook
        exact ⟨gs, glance p w, ⟨List.prefix_rfl, hundecided, hheld⟩, rfl⟩
      | again s' =>
        have hagain : ((glance p w).seen ≠ none ∧ ¬ Held stability gs (glance p w)) ∧
            s'.Describes (gs ++ [glance p w]) := by simpa only [glance, hverdict] using hlook
        exact ⟨(nextTime_concat (glance p w)).symm, undecided_concat.2 ⟨hundecided, hagain.1⟩, hagain.2⟩
    · rw [Wait.look, if_neg hdue, if_neg hdue]
      exact ⟨rfl, hundecided, hdescribes⟩

/-- **A wait after some worlds**, by the looks in them. -/
theorem along_status (stability : Stability) (p : Path) (start : Nat) (ws : List World) :
    Status stability start (glances stability p start ws)
      ((begin start).along stability p ws) := by
  induction ws using List.reverseRecOn with
  | nil => exact ⟨rfl, undecided_nil, rfl⟩
  | append_singleton ws w ih =>
    rw [along_append, glances_concat]
    refine ih.look fun hdue y hy => ?_
    have hspaced := glances_spaced stability p start (ws ++ [w])
    rw [glances_concat, if_pos hdue] at hspaced
    exact Nat.le_trans (Nat.le_add_right ..) (hspaced.le hy)

theorem Status.finished_iff (h : Status stability start gs x) {b : Bool} {t : Nat} :
    x = .finished b t ↔ ∃ before g, EndsAt stability gs before g b ∧ t = g.time := by
  constructor
  · rintro rfl
    exact h
  · rintro ⟨before, g, hends, rfl⟩
    cases x with
    | waiting next s => exact absurd h.2.1 hends.not_undecided
    | finished b' t' =>
      obtain ⟨before', g', hends', rfl⟩ := h
      obtain ⟨-, rfl, rfl⟩ := hends.unique hends'
      rfl

/-! ## How long it takes -/

theorem waiting_due {next : Nat} {s : Settle} (ws : List World)
    (h : (begin start).along stability p (ws ++ [w]) = .waiting next s) (hpoll : 0 < stability.pollMs) :
    w.clock < next := by
  have hstatus := along_status stability p start (ws ++ [w])
  rw [h] at hstatus
  obtain ⟨rfl, -, -⟩ := hstatus
  rw [glances_concat]
  split
  · rw [nextTime_concat]
    exact Nat.lt_add_of_pos_right hpoll
  · rename_i hdue
    exact Nat.lt_of_not_le hdue

variable {older later : List Glance} {c : Glance} {n : Nat}

/-- The looks found the file all the time, and one size of it from `c` on. -/
structure SameFrom (gs older : List Glance) (c : Glance) (later : List Glance) (n : Nat) : Prop where
  looks : gs = older ++ c :: later
  file : ∀ y ∈ older, y.seen ≠ none
  same : ∀ y ∈ c :: later, y.seen = some n

theorem SameFrom.seen (h : SameFrom gs older c later n) {y : Glance} (hy : y ∈ gs) :
    y.seen ≠ none := by
  rw [h.looks] at hy
  rcases List.mem_append.1 hy with hy | hy
  · exact h.file y hy
  · rw [h.same y hy]
    exact Option.some_ne_none n

/-- A look that comes the threshold after `c` finds that the size held still. -/
theorem SameFrom.held (h : SameFrom gs older c later n) (hspaced : Spaced stability.pollMs gs)
    {run rest : List Glance} {g : Glance} (hlater : later = run ++ g :: rest)
    (hlong : c.time + stability.thresholdMs ≤ g.time) :
    Held stability (older ++ c :: run) g := by
  obtain ⟨rfl, -, hsame⟩ := h
  subst hlater
  refine held_of_same (fun y hy => ?_) (fun y hy => hsame y ?_) (hsame g (by simp)) hlong
  · have hc := (List.pairwise_append.1 hspaced).2.2 y hy c (List.mem_cons_self ..)
    exact Nat.le_trans (Nat.le_add_right ..) hc
  · rw [← List.cons_append]
    exact List.mem_append_left _ hy

/-- **By the first look after the threshold** a wait for a file that stays as it is has said so. -/
theorem Status.settles (h : Status stability start gs x) (hs : SameFrom gs older c later n)
    (hspaced : Spaced stability.pollMs gs) {g : Glance} (hg : g ∈ later)
    (hlong : c.time + stability.thresholdMs ≤ g.time) : ∃ t ≤ g.time, x = .finished true t := by
  obtain ⟨run, rest, hlater⟩ := List.append_of_mem hg
  have hheld := hs.held hspaced hlater hlong
  have hgs : gs = (older ++ c :: run) ++ g :: rest := by rw [hs.looks, hlater]; simp
  have hlooked : (older ++ c :: run) ++ [g] <+: gs := ⟨rest, by rw [hgs]; simp⟩
  cases x with
  | waiting next s => exact absurd hheld (h.2.1 _ g hlooked).2
  | finished b t =>
    obtain ⟨before, e, hends, rfl⟩ := h
    cases b with
    | false => exact absurd hends.ends (hs.seen (hends.looked.subset (by simp)))
    | true =>
      refine ⟨e.time, ?_, rfl⟩
      rcases Nat.lt_or_ge before.length ((older ++ c :: run) ++ [g]).length with hlt | hle
      · have hpre : before ++ [e] <+: (older ++ c :: run) ++ [g] :=
          List.prefix_of_prefix_length_le hends.looked hlooked (by
            rw [List.length_append, List.length_singleton]
            exact hlt)
        have hmem' : e ∈ (older ++ c :: run) ++ [g] := hpre.subset (by simp)
        rcases List.mem_append.1 hmem' with hmem' | hmem'
        · have htime := (hspaced.of_prefix hlooked).le hmem'
          exact Nat.le_trans (Nat.le_add_right ..) htime
        · exact Nat.le_of_eq (congrArg Glance.time (List.mem_singleton.1 hmem'))
      · -- the wait would have ended before
        have hpre := List.prefix_of_prefix_length_le hlooked
          ((List.prefix_append _ _).trans hends.looked) hle
        exact absurd hheld (hends.undecided _ g hpre).2

/-- **Before the threshold and one more pause are over** a wait for a file that stays as it is has said
so. -/
theorem along_in_time {ws : List World} (hs : SameFrom (glances stability p start ws) older c later n)
    (hpoll : 0 < stability.pollMs) (hw : w ∈ ws.getLast?)
    (hlong : c.time + stability.thresholdMs + stability.pollMs ≤ w.clock) :
    ∃ t, (begin start).along stability p ws = .finished true t := by
  have hstatus := along_status stability p start ws
  have hspaced := glances_spaced stability p start ws
  cases hx : (begin start).along stability p ws with
  | finished b t =>
    rw [hx] at hstatus
    obtain ⟨before, e, hends, -⟩ := hstatus
    cases b with
    | false => exact absurd hends.ends (hs.seen (hends.looked.subset (by simp)))
    | true => exact ⟨t, rfl⟩
  | waiting next s =>
    obtain ⟨front, rfl⟩ := List.getLast?_eq_some_iff.1 hw
    have hnext := waiting_due front hx hpoll
    rw [hx] at hstatus
    have hdue := hstatus.1
    rcases List.eq_nil_or_concat later with rfl | ⟨run, g, rfl⟩
    · rw [hs.looks, nextTime_concat] at hdue
      omega
    · -- the last look came so late that it would have ended the wait
      rw [List.concat_eq_append] at hs
      rw [hs.looks, ← List.cons_append, ← List.append_assoc, nextTime_concat] at hdue
      obtain ⟨t, -, ht⟩ := hstatus.settles hs hspaced (g := g) (by simp) (by omega)
      cases ht

/-- **The wait as a machine** goes on in worlds with the same files, as time passes. -/
theorem advance_along (stability : Stability) (p : Path) (now target : Nat) (x : Wait) (w : World) :
    ∃ ws, ((machine stability p).advance now target x w).1 = x.along stability p ws ∧
      ∀ v ∈ ws, v.files = w.files ∧ now ≤ v.clock := by
  -- at one time a wait looks in one world, and it does so twice if it is still due
  have htwice : ∀ (now : Nat) (w : World), ∀ v ∈ List.replicate 2 { w with clock := now },
      v.files = w.files ∧ now ≤ v.clock := by
    intro now w v hv
    rw [List.eq_of_mem_replicate hv]
    exact ⟨rfl, Nat.le_refl now⟩
  fun_induction Machine.advance (machine stability p) now target x w with
  | case1 now x w r hdue => exact ⟨_, rfl, htwice now w⟩
  | case2 now x w r t hdue next hnext ih =>
    obtain ⟨ws, hws, hall⟩ := ih
    refine ⟨_ ++ ws, hws.trans (along_append x (List.replicate 2 _) ws).symm, fun v hv => ?_⟩
    rcases List.mem_append.1 hv with hv | hv
    · exact htwice now w v hv
    · obtain ⟨hfiles, hclock⟩ := hall v hv
      exact ⟨hfiles, by omega⟩
  | case3 now x w r t hdue next hnext => exact ⟨_, rfl, htwice now w⟩

/-! ## When a wait ends -/

/-- **When a file has settled.** However the file and the time change from world to world:

* a wait ends at the first of its looks that finds no regular file, and says that there is none, or that
  finds a size that held still for the threshold, and says that it has settled; no look before did so;
* where it says so, no look within the threshold before found another size, and every change of size
  was followed by the threshold and by one more look;
* if the looks find the file all the time, and one size from a look on, it has said so by the first
  look that is the threshold later, and, with a pause between looks, before the threshold and one more
  pause are over.

The wait as a machine goes on in such worlds. -/
theorem along_settles (stability : Stability) (p : Path) (start : Nat) (ws : List World) :
    let x := (begin start).along stability p ws
    let gs := glances stability p start ws
    (∀ b t, x = .finished b t ↔ ∃ before g, EndsAt stability gs before g b ∧ t = g.time) ∧
    (∀ before g, EndsAt stability gs before g true →
      (∀ y ∈ before, g.time < y.time + stability.thresholdMs ∨
        0 < stability.pollMs ∧ g.time ≤ y.time + stability.thresholdMs → y.seen = g.seen) ∧
      ∀ front y z later, before ++ [g] = front ++ y :: z :: later → y.seen ≠ z.seen →
        z.time + stability.thresholdMs ≤ g.time ∧ later ≠ []) ∧
    (∀ older c later n, SameFrom gs older c later n →
      (∀ g ∈ later, c.time + stability.thresholdMs ≤ g.time →
        ∃ t ≤ g.time, x = .finished true t) ∧
      (0 < stability.pollMs → ∀ w ∈ ws.getLast?,
        c.time + stability.thresholdMs + stability.pollMs ≤ w.clock →
        ∃ t, x = .finished true t)) ∧
    ∀ now target y w, ∃ us, ((machine stability p).advance now target y w).1 = y.along stability p us ∧
      ∀ v ∈ us, v.files = w.files ∧ now ≤ v.clock := by
  intro x gs
  have hstatus : Status stability start gs x := along_status stability p start ws
  have hspaced : Spaced stability.pollMs gs := glances_spaced stability _ _ ws
  refine ⟨fun b t => hstatus.finished_iff, fun before g hends => ?_, fun older c later n hs => ?_,
    advance_along stability p⟩
  · have hbefore := hspaced.of_prefix hends.looked
    have hheld : Held stability before g := hends.ends
    exact ⟨fun y hy hnear => hheld.window hbefore hy hnear, fun front y z later he hne =>
      hheld.restart hbefore he hne⟩
  · exact ⟨fun g hg hlong => hstatus.settles hs hspaced hg hlong, fun hpoll w hw hlong =>
      along_in_time hs hpoll hw hlong⟩

end Wait

end DownloadTriage
