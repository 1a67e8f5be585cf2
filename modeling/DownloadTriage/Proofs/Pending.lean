import DownloadTriage.Proofs.Watching
import Mathlib.Data.List.Perm.Basic

/-!
# The pending paths of a watcher

Along every run the pending paths are those of the waits, of which there is at most one for a file.
Every arrival that is accepted is the beginning of one wait, and every wait that ends with a settled
file is one report.

* `Watcher.Tidy`: kept by every step of the watcher.
* `Watching.Accounted`: where the accepted arrivals and the settled files are.
* `Watching.play_debounced`: what that means for changes, waits and reports.
* `Watching.run_moves`: the watcher as a machine makes moves.
-/

namespace DownloadTriage

/-! ## The watcher stays tidy -/

namespace Watcher

variable {x : Watcher}

/-- It matters only what is pending and what is waited for. -/
theorem Tidy.of_eq (h : x.Tidy) {y : Watcher} (hpending : y.pending = x.pending)
    (hpaths : y.paths = x.paths) : y.Tidy := by
  refine ⟨?_, ?_⟩
  · rw [hpending, hpaths]
    exact h.pending
  · rw [hpaths]
    exact h.distinct

theorem paths_map (x : Watcher) {f : SettleJob → SettleJob} (hf : ∀ j, (f j).path = j.path) :
    paths { x with jobs := x.jobs.map f } = x.paths := by
  rw [paths, paths, List.map_map]
  exact List.map_congr_left fun j _ => hf j

theorem lookAt_path (w : World) (j : SettleJob) : (lookAt w j).path = j.path := by
  unfold lookAt
  split <;> rfl

theorem paths_lookOnce (x : Watcher) (w : World) (j : SettleJob) :
    (x.lookOnce w j).paths = x.paths := by
  refine x.paths_map fun k => ?_
  split
  · exact lookAt_path w k
  · rfl

theorem paths_replace (x : Watcher) {j k : SettleJob} (hk : k.path = j.path) :
    paths { x with jobs := x.jobs.map fun i => if i = j then k else i } = x.paths := by
  refine x.paths_map fun i => ?_
  split
  · rename_i hi
    rw [hk, hi]
  · rfl

/-- What is admitted is waited for by none. -/
theorem not_sameWay_of_admits {c : Change} {p : Path} (h : x.admits? c = some p) {r : Path}
    (hr : r ∈ x.paths) : r.sameWay p = false := by
  obtain ⟨j, hj, rfl⟩ := List.mem_map.1 hr
  have hfree := (admits?_eq_some.1 h).2.2 j hj
  refine Bool.eq_false_iff.2 fun hsame => ?_
  rw [Path.sameWay_symm hsame] at hfree
  cases hfree

theorem Tidy.take (h : x.Tidy) (w : World) : (x.take w).1.Tidy := by
  cases hc : x.incoming with
  | nil =>
    rw [Watcher.take, hc]
    exact h
  | cons c cs =>
    rw [h.take_eq w hc]
    dsimp only
    have hpaths : ∀ p now, [SettleJob.begin p now].map (·.path) = [p] := fun _ _ => rfl
    cases ha : x.admits? c with
    | none => exact h.of_eq rfl (by simp [paths])
    | some p =>
      refine ⟨?_, ?_⟩
      · have hperm : (p :: x.pending).Perm (x.paths ++ [p]) :=
          (h.pending.cons p).trans (List.perm_append_singleton p x.paths).symm
        simpa [paths, SettleJob.begin] using hperm
      · have hpair : (x.paths ++ [p]).Pairwise fun p q => p.sameWay q = false := by
          refine List.pairwise_append.2 ⟨h.distinct, List.pairwise_singleton _ _, ?_⟩
          intro r hr s hs
          rw [List.mem_singleton.1 hs]
          exact not_sameWay_of_admits ha hr
        simpa [paths, SettleJob.begin] using hpair

/-- The path of a wait, and those of the others. -/
theorem paths_perm {j : SettleJob} (hj : j ∈ x.jobs) :
    x.paths.Perm (j.path :: (x.jobs.erase j).map (·.path)) :=
  (List.perm_cons_erase hj).map _

/-- A wait that is over is pending no more, and the others still are. -/
theorem Tidy.conclude (h : x.Tidy) {j : SettleJob} (hj : j ∈ x.jobs) (b : Bool) :
    (x.conclude j b).Tidy := by
  refine ⟨?_, ?_⟩
  · have hperm := (h.pending.trans (paths_perm hj)).erase j.path
    rw [List.erase_cons_head] at hperm
    exact hperm
  · exact h.distinct.sublist (List.erase_sublist.map _)

end Watcher

/-! ## Where everything is -/

namespace WatchLedger

theorem settled_conclude (k : WatchLedger) (p : Path) (b : Bool) :
    (k.conclude p (some b)).settled = k.settled ++ if b then [p] else [] := by
  rw [settled, settled, conclude]
  cases b <;> simp

/-- Nothing settles without being concluded. -/
theorem settled_sublist (k : WatchLedger) : k.settled.Sublist (k.concluded.map (·.1)) :=
  List.filter_sublist.map _

end WatchLedger

namespace Watching

/-- **Every accepted arrival** is waited for, its wait has ended, or it was given up. **Every
settled file** is one that the agent is being told of, was told of, or will never be told of. -/
structure Accounted (q : Watching) : Prop where
  tidy : ∀ x, q.watcher = some x → x.Tidy
  accepted : q.ledger.accepted.Perm
    (q.paths ++ q.ledger.concluded.map (·.1) ++ q.ledger.abandoned)
  settled : q.ledger.settled.Perm (q.sending ++ q.ledger.reported ++ q.ledger.lost)
  heeded : ∀ p ∈ q.ledger.accepted, p.isIgnored = false
  /-- While the agent listens and watching goes on, nothing is lost or given up. -/
  kept : q.watcher ≠ none → q.ledger.abandoned = [] ∧ (q.listening = true → q.ledger.lost = [])

variable {q : Watching} {x : Watcher}

theorem start_accounted (dir : Path) (stability : Stability) (w : World) :
    (start dir stability w).Accounted := by
  unfold start
  split
  · rename_i x w' hstart
    obtain ⟨hp, hj, ho⟩ : x.pending = [] ∧ x.jobs = [] ∧ x.outgoing = [] := by
      unfold Watcher.start at hstart
      split at hstart
      · cases hstart
        exact ⟨rfl, rfl, rfl⟩
      · cases hstart
    have hpaths : x.paths = [] := by rw [Watcher.paths, hj, List.map_nil]
    refine ⟨?_, ?_, ?_, List.forall_mem_nil _, fun _ => ⟨rfl, fun _ => rfl⟩⟩
    · rintro _ ⟨⟩
      exact ⟨by rw [hp, hpaths], by rw [hpaths]; exact .nil⟩
    · simp [paths, hpaths, WatchLedger.blank]
    · simp [sending, ho, WatchLedger.blank, WatchLedger.settled]
  · refine ⟨fun x hx => absurd hx (Option.some_ne_none x).symm, ?_, ?_, List.forall_mem_nil _,
      fun h => absurd rfl h⟩
    · simp [paths, WatchLedger.blank]
    · simp [sending, WatchLedger.blank, WatchLedger.settled]

/-- It matters only which paths are waited for and which settled files the agent is told of. -/
theorem Accounted.of_eq (h : q.Accounted) (hx : q.watcher = some x) (y : Watcher)
    (hpending : y.pending = x.pending) (hpaths : y.paths = x.paths)
    (hsending : y.outgoing = x.outgoing) : Accounted { q with watcher := some y } where
  tidy := by
    rintro _ ⟨⟩
    exact (h.tidy x hx).of_eq hpending hpaths
  accepted := by
    have haccepted := h.accepted
    rw [paths, hx] at haccepted
    dsimp only [paths, Option.map_some, Option.getD_some] at haccepted ⊢
    rw [hpaths]
    exact haccepted
  settled := by
    have hsettled := h.settled
    rw [sending, hx] at hsettled
    dsimp only [sending, Option.map_some, Option.getD_some] at hsettled ⊢
    rw [hsending]
    exact hsettled
  heeded := h.heeded
  kept _ := h.kept (by rw [hx]; exact Option.some_ne_none x)

/-- An arrival is accepted as its wait begins. -/
theorem Accounted.take (h : q.Accounted) (hx : q.watcher = some x) :
    Accounted { q with
      watcher := some (x.take q.world).1
      world := (x.take q.world).2
      ledger := q.ledger.take x } := by
  have htidy := h.tidy x hx
  cases hc : x.incoming with
  | nil =>
    have hledger : q.ledger.take x = q.ledger := by
      rw [WatchLedger.take, hc]
      simp
    have htake : x.take q.world = (x, q.world) := by rw [Watcher.take, hc]
    rw [hledger, htake]
    exact h.of_eq hx x rfl rfl rfl
  | cons c cs =>
    have hledger : q.ledger.take x =
        { q.ledger with accepted := q.ledger.accepted ++ (x.admits? c).toList } := by
      rw [WatchLedger.take, hc]
      rfl
    have hpaths : (x.take q.world).1.paths = x.paths ++ (x.admits? c).toList := by
      rw [htidy.take_eq q.world hc]
      cases x.admits? c <;> simp [Watcher.paths, SettleJob.begin]
    have hsending : (x.take q.world).1.outgoing = x.outgoing := by rw [htidy.take_eq q.world hc]
    have haccepted := h.accepted
    have hsettled := h.settled
    rw [paths, hx] at haccepted
    rw [sending, hx] at hsettled
    dsimp only [Option.map_some, Option.getD_some] at haccepted hsettled
    rw [hledger]
    refine ⟨?_, ?_, ?_, ?_, fun _ => h.kept (by rw [hx]; exact Option.some_ne_none x)⟩
    · rintro _ ⟨⟩
      exact htidy.take q.world
    · dsimp only [paths, Option.map_some, Option.getD_some]
      rw [hpaths]
      refine List.perm_iff_count.2 fun p => ?_
      have hcount := haccepted.count_eq p
      simp only [List.count_append] at hcount ⊢
      omega
    · dsimp only [sending, Option.map_some, Option.getD_some]
      rw [hsending]
      exact hsettled
    · intro p hp
      rcases List.mem_append.1 hp with hp | hp
      · exact h.heeded p hp
      · exact (Watcher.admits?_eq_some.1 (Option.mem_toList.1 hp)).2.1

/-- A wait that ends is concluded, and sends for its file if it settled. -/
theorem Accounted.resume (h : q.Accounted) (hx : q.watcher = some x) {j : SettleJob}
    (hj : j ∈ x.jobs) : Accounted { q with
      watcher := some (x.goOn j q.world.clock)
      ledger := q.ledger.conclude j.path (x.ends? j q.world.clock) } := by
  have htidy := h.tidy x hx
  rcases x.goOn_eq j q.world.clock with ⟨b, hends, he⟩ | ⟨hends, k, hk, -, he⟩
  · have haccepted := h.accepted
    have hsettled := h.settled
    rw [paths, hx] at haccepted
    rw [sending, hx] at hsettled
    dsimp only [Option.map_some, Option.getD_some] at haccepted hsettled
    have hpaths : x.paths.Perm ([j.path] ++ (x.conclude j b).paths) := Watcher.paths_perm hj
    rw [hends, he]
    refine ⟨?_, ?_, ?_, h.heeded, fun _ => h.kept (by rw [hx]; exact Option.some_ne_none x)⟩
    · rintro _ ⟨⟩
      exact htidy.conclude hj b
    · refine List.perm_iff_count.2 fun p => ?_
      have hcount := haccepted.count_eq p
      have hwaiting := hpaths.count_eq p
      simp only [paths, WatchLedger.conclude, Option.map_some, Option.getD_some, Option.toList_some,
        List.map_append, List.map_cons, List.map_nil, List.count_append] at hcount hwaiting ⊢
      omega
    · rw [WatchLedger.settled_conclude]
      refine List.perm_iff_count.2 fun p => ?_
      have hcount := hsettled.count_eq p
      have hsending : (x.conclude j b).outgoing = x.outgoing ++ if b then [j.path] else [] := by
        cases b <;> simp [Watcher.conclude]
      simp only [sending, WatchLedger.conclude, Option.map_some, Option.getD_some, hsending,
        List.count_append] at hcount ⊢
      omega
  · have hledger : q.ledger.conclude j.path none = q.ledger := by simp [WatchLedger.conclude]
    rw [hends, he, hledger]
    exact h.of_eq hx _ rfl (x.paths_replace hk) rfl

/-- The agent is told of a settled file, or it is lost. -/
theorem Accounted.report (h : q.Accounted) (hx : q.watcher = some x) {i : Nat} {p : Path}
    (hp : x.outgoing[i]? = some p) : Accounted { q with
      watcher := some { x with outgoing := x.outgoing.eraseIdx i }
      ledger := q.ledger.tell q.listening p } := by
  obtain ⟨hi, rfl⟩ := List.getElem?_eq_some_iff.1 hp
  have hsplit : ([x.outgoing[i]] ++ x.outgoing.eraseIdx i).Perm x.outgoing :=
    List.getElem_cons_eraseIdx_perm hi
  have hkept := h.kept (by rw [hx]; exact Option.some_ne_none x)
  have haccepted := h.accepted
  have hsettled := h.settled
  rw [paths, hx] at haccepted
  rw [sending, hx] at hsettled
  have htidy : Watcher.Tidy { x with outgoing := x.outgoing.eraseIdx i } :=
    (h.tidy x hx).of_eq rfl rfl
  have hcount : ∀ r, q.ledger.settled.count r = [x.outgoing[i]].count r +
      (x.outgoing.eraseIdx i).count r + q.ledger.reported.count r + q.ledger.lost.count r := by
    intro r
    have hsum := hsettled.count_eq r
    have hout := hsplit.count_eq r
    simp only [Option.map_some, Option.getD_some, List.count_append] at hsum hout
    omega
  cases hl : q.listening with
  | true =>
    refine ⟨?_, haccepted, ?_, h.heeded, fun _ => ⟨hkept.1, fun _ => hkept.2 hl⟩⟩
    · rintro _ ⟨⟩
      exact htidy
    · refine List.perm_iff_count.2 fun r => ?_
      have hsum := hcount r
      simp only [sending, WatchLedger.tell, Option.map_some, Option.getD_some, if_true,
        List.count_append]
      exact hsum.trans (by omega)
  | false =>
    refine ⟨?_, haccepted, ?_, h.heeded, fun _ => ⟨hkept.1, nofun⟩⟩
    · rintro _ ⟨⟩
      exact htidy
    · refine List.perm_iff_count.2 fun r => ?_
      have hsum := hcount r
      simp only [sending, WatchLedger.tell, Option.map_some, Option.getD_some, Bool.false_eq_true,
        if_false, List.count_append]
      exact hsum.trans (by omega)

/-- What is waited for is given up when watching ends, and what is sent is lost. -/
theorem Accounted.close (h : q.Accounted) (hx : q.watcher = some x) (w : World) :
    Accounted { q with watcher := none, world := w, ledger := q.ledger.close x } := by
  have haccepted := h.accepted
  have hsettled := h.settled
  rw [paths, hx] at haccepted
  rw [sending, hx] at hsettled
  refine ⟨nofun, ?_, ?_, h.heeded, fun hopen => absurd rfl hopen⟩
  · refine List.perm_iff_count.2 fun p => ?_
    have hcount := haccepted.count_eq p
    simp only [paths, WatchLedger.close, Option.map_some, Option.getD_some, Option.map_none,
      Option.getD_none, List.count_append, List.count_nil] at hcount ⊢
    omega
  · refine List.perm_iff_count.2 fun p => ?_
    have hcount : q.ledger.settled.count p = _ := hsettled.count_eq p
    simp only [sending, WatchLedger.close, Option.map_some, Option.getD_some, Option.map_none,
      Option.getD_none, List.count_append, List.count_nil] at hcount ⊢
    exact hcount.trans (by omega)

/-- **Every move** keeps the accounts. -/
theorem act_accounted (h : q.Accounted) (m : WatchMove) : (q.act m).Accounted := by
  have hstep := q.act_step m
  generalize q.act m = r at hstep ⊢
  cases hstep with
  | idle => exact h
  | pass ms files => exact ⟨h.tidy, h.accepted, h.settled, h.heeded, h.kept⟩
  | notify hx c => exact h.of_eq hx _ rfl rfl rfl
  | take hx => exact h.take hx
  | look hx j => exact h.of_eq hx _ rfl (Watcher.paths_lookOnce ..) rfl
  | resume hx hj => exact h.resume hx hj
  | report hx hp => exact h.report hx hp
  | depart =>
    exact ⟨h.tidy, h.accepted, h.settled, h.heeded, fun hopen => ⟨(h.kept hopen).1, nofun⟩⟩
  | close hx fault => exact h.close hx _

theorem play_accounted (dir : Path) (stability : Stability) (w : World) (moves : List WatchMove) :
    (play dir stability w moves).Accounted :=
  goOn_induction (start_accounted dir stability w) (fun _ m h => act_accounted h m) moves

/-! ## Changes, waits and reports -/

/-- **What a watcher keeps to** at any time. -/
structure Debounced (q : Watching) : Prop where
  accounted : q.Accounted
  /-- A change that is taken begins the wait for the path that it admits. Nothing else begins, ends
  or is sent then. -/
  takes : ∀ x c cs, q.watcher = some x → x.incoming = c :: cs → q.act .take = { q with
    watcher := some { x with
      incoming := cs
      pending := (x.admits? c).toList ++ x.pending
      jobs := x.jobs ++ (x.admits? c).toList.map (SettleJob.begin · q.world.clock) }
    world := q.world.say c.lines
    ledger := { q.ledger with accepted := q.ledger.accepted ++ (x.admits? c).toList } }
  /-- A wait that ends is pending no more, and its file is sent once if it settled. -/
  ends : ∀ x j b, q.watcher = some x → j ∈ x.jobs → x.ends? j q.world.clock = some b →
    q.act (.resume j) = { q with
      watcher := some { x with
        pending := x.pending.erase j.path
        jobs := x.jobs.erase j
        outgoing := x.outgoing ++ if b then [j.path] else [] }
      ledger := { q.ledger with concluded := q.ledger.concluded ++ [(j.path, b)] } }
  /-- A wait that does not end is still one for its path. -/
  waits : ∀ x j, q.watcher = some x → j ∈ x.jobs → x.ends? j q.world.clock = none →
    ∃ jobs : List SettleJob, jobs.map (·.path) = x.paths ∧
      q.act (.resume j) = { q with watcher := some { x with jobs } }
  /-- Of any paths, no more are reported than were accepted. -/
  fewer : ∀ f : Path → Bool, q.ledger.reported.countP f ≤ q.ledger.accepted.countP f
  /-- A name that is ignored is never reported. -/
  heeds : ∀ p ∈ q.ledger.reported, p.isIgnored = false

theorem Accounted.fewer (h : q.Accounted) (f : Path → Bool) :
    q.ledger.reported.countP f ≤ q.ledger.accepted.countP f := by
  have hsettled := h.settled.countP_eq f
  have haccepted := h.accepted.countP_eq f
  have hsublist := q.ledger.settled_sublist.countP_le (p := f)
  simp only [List.countP_append] at hsettled haccepted
  omega

/-- **At any time** of any run the watcher keeps to that. -/
theorem play_debounced (dir : Path) (stability : Stability) (w : World) (moves : List WatchMove) :
    (play dir stability w moves).Debounced := by
  have h := play_accounted dir stability w moves
  generalize play dir stability w moves = q at h
  refine ⟨h, ?_, ?_, ?_, h.fewer, ?_⟩
  · intro x c cs hx hc
    rw [act, hx]
    dsimp only
    rw [(h.tidy x hx).take_eq q.world hc, WatchLedger.take, hc]
    rfl
  · intro x j b hx hj hends
    rcases x.goOn_eq j q.world.clock with ⟨b', hb, he⟩ | ⟨hn, -⟩
    · obtain rfl : b = b' := Option.some.inj (hends.symm.trans hb)
      rw [act, hx]
      dsimp only
      rw [if_pos hj, he, hends, Watcher.conclude]
      cases b <;> simp [WatchLedger.conclude]
    · rw [hn] at hends
      cases hends
  · intro x j hx hj hends
    rcases x.goOn_eq j q.world.clock with ⟨b, hb, -⟩ | ⟨-, k, hk, -, he⟩
    · rw [hb] at hends
      cases hends
    · refine ⟨_, x.paths_replace hk, ?_⟩
      rw [act, hx]
      dsimp only
      rw [if_pos hj, he, hends]
      simp [WatchLedger.conclude]
  · intro p hp
    -- what is reported was accepted
    have hpositive : 0 < q.ledger.reported.countP (· == p) :=
      List.countP_pos_iff.2 ⟨p, hp, beq_self_eq_true p⟩
    have hless := h.fewer (· == p)
    obtain ⟨r, hr, hsame⟩ := List.countP_pos_iff.1 (Nat.lt_of_lt_of_le hpositive hless)
    rw [← eq_of_beq hsame]
    exact h.heeded r hr

end Watching

/-! ## The watcher as a machine -/

namespace Watcher

variable {x : Watcher}

theorem lookAt_lookAt (w : World) (j : SettleJob) : lookAt w (lookAt w j) = lookAt w j := by
  by_cases h : j.nextLook ≤ w.clock ∧ j.seen = none
  · have hlook : lookAt w j = { j with seen := some (Settle.sizeAt w.files j.path) } := if_pos h
    rw [hlook]
    exact if_neg fun hseen => Option.some_ne_none _ hseen.2
  · have hlook : lookAt w j = j := if_neg h
    rw [hlook, hlook]

/-- Looks one after the other. -/
theorem foldl_lookOnce (x : Watcher) (w : World) (js : List SettleJob) :
    js.foldl (·.lookOnce w ·) x =
      { x with jobs := x.jobs.map fun k => if k ∈ js then lookAt w k else k } := by
  induction js generalizing x with
  | nil => simp
  | cons j js ih =>
    rw [List.foldl_cons, ih]
    simp only [lookOnce, List.map_map]
    congr 1
    refine List.map_congr_left fun k _ => ?_
    by_cases hk : k = j
    · subst hk
      simp [lookAt_lookAt]
    · simp [hk]

/-- All waits have looked. -/
theorem foldl_lookOnce_jobs (x : Watcher) (w : World) :
    x.jobs.foldl (·.lookOnce w ·) x = { x with jobs := x.jobs.map (lookAt w) } := by
  rw [foldl_lookOnce]
  congr 1
  exact List.map_congr_left fun k hk => if_pos hk

theorem Tidy.nodup (h : x.Tidy) : x.jobs.Nodup := by
  have hdistinct := List.pairwise_map.1 h.distinct
  refine hdistinct.imp fun {j k} hjk he => ?_
  rw [he, Path.sameWay_refl] at hjk
  cases hjk

/-- A wait that goes on leaves the others alone. -/
theorem mem_goOn {j k : SettleJob} (hk : k ∈ x.jobs) (hne : k ≠ j) (now : Nat) :
    k ∈ (x.goOn j now).jobs := by
  rcases x.goOn_eq j now with ⟨b, -, he⟩ | ⟨-, i, -, -, he⟩
  · rw [he]
    exact (List.mem_erase_of_ne hne).2 hk
  · rw [he]
    exact List.mem_map.2 ⟨k, hk, if_neg hne⟩

end Watcher

namespace Watching

/-- The watcher, the world and what was reported so far, of an agent that listens. -/
structure Shows (q : Watching) (x : Watcher) (w : World) (told : List Path) : Prop where
  watcher : q.watcher = some x
  world : q.world = w
  listening : q.listening = true
  reported : q.ledger.reported = told

namespace Shows

variable {q : Watching} {x : Watcher} {w : World} {told : List Path}

theorem takeAll (h : q.Shows x w told) (n : Nat) :
    (q.goOn (List.replicate n .take)).Shows (Watcher.takeAll n x w).1 (Watcher.takeAll n x w).2
      told := by
  induction n generalizing q x w with
  | zero => exact h
  | succ n ih =>
    refine ih (q := q.act .take) ⟨?_, ?_, ?_, ?_⟩
    · rw [act, h.watcher, ← h.world]
    · rw [act, h.watcher, ← h.world]
    · rw [act, h.watcher]
      exact h.listening
    · rw [act, h.watcher]
      exact h.reported

theorem looks (h : q.Shows x w told) (js : List SettleJob) :
    (q.goOn (js.map .look)).Shows (js.foldl (·.lookOnce w ·) x) w told := by
  induction js generalizing q x with
  | nil => exact h
  | cons j js ih =>
    refine ih (q := q.act (.look j)) ⟨?_, h.world, h.listening, h.reported⟩
    rw [act, h.watcher, h.world]
    rfl

/-- Waits that are under way go on, one after the other. -/
theorem resumes (h : q.Shows x w told) {js : List SettleJob} (hjs : ∀ j ∈ js, j ∈ x.jobs)
    (hnodup : js.Nodup) :
    (q.goOn (js.map .resume)).Shows (js.foldl (fun x j => x.goOn j w.clock) x) w told := by
  induction js generalizing q x with
  | nil => exact h
  | cons j js ih =>
    obtain ⟨hj, hrest⟩ := List.nodup_cons.1 hnodup
    have hmem : j ∈ x.jobs := hjs j (List.mem_cons_self ..)
    have hact : q.act (.resume j) = { q with
        watcher := some (x.goOn j q.world.clock)
        ledger := q.ledger.conclude j.path (x.ends? j q.world.clock) } := by
      rw [act, h.watcher]
      exact if_pos hmem
    refine ih (q := q.act (.resume j)) ?_ (fun k hk => ?_) hrest
    · rw [hact, ← h.world]
      exact ⟨rfl, rfl, h.listening, h.reported⟩
    · refine Watcher.mem_goOn (hjs k (List.mem_cons_of_mem j hk)) ?_ w.clock
      rintro rfl
      exact hj hk

/-- The agent is told of all settled files, the first one first. -/
theorem reports (h : q.Shows x w told) :
    (q.goOn (List.replicate x.outgoing.length (.report 0))).Shows { x with outgoing := [] } w
      (told ++ x.outgoing) := by
  induction ho : x.outgoing generalizing q x told with
  | nil =>
    rw [List.append_nil]
    have hx : ({ x with outgoing := [] } : Watcher) = x := by rw [← ho]
    rw [hx]
    exact h
  | cons p ps ih =>
    have hact : q.act (.report 0) = { q with
        watcher := some { x with outgoing := ps }
        ledger := q.ledger.tell q.listening p } := by
      rw [act, h.watcher]
      dsimp only
      rw [ho]
      rfl
    have hshows : (q.act (.report 0)).Shows { x with outgoing := ps } w (told ++ [p]) := by
      rw [hact]
      refine ⟨rfl, h.world, h.listening, ?_⟩
      rw [h.listening, ← h.reported]
      rfl
    have hnext := ih hshows rfl
    rw [List.append_assoc] at hnext
    exact hnext

end Shows

/-- One round of looks: all waits look, and then all go on. -/
theorem lookAround_moves {q : Watching} {x : Watcher} {w : World} {told : List Path}
    (h : q.Accounted) (hs : q.Shows x w told) :
    ∃ moves, (q.goOn moves).Shows (x.lookAround w) w told := by
  have htidy := h.tidy x hs.watcher
  have hlooked := hs.looks x.jobs
  rw [x.foldl_lookOnce_jobs] at hlooked
  have htidy' : Watcher.Tidy { x with jobs := x.jobs.map (Watcher.lookAt w) } :=
    htidy.of_eq rfl (x.paths_map (Watcher.lookAt_path w))
  have hresumed := hlooked.resumes (fun j hj => hj) htidy'.nodup
  rw [← goOn_append] at hresumed
  exact ⟨_, hresumed⟩

/-- **The watcher as a machine** makes moves: all changes are taken, all waits look and go on for as
long as they are due, and the agent is told of all settled files. -/
theorem run_moves {q : Watching} {x : Watcher} (h : q.Accounted) (hx : q.watcher = some x)
    (hl : q.listening = true) : ∃ moves, (q.goOn moves).Shows (x.run q.world).1
      (x.run q.world).2.2 (q.ledger.reported ++ (x.run q.world).2.1) := by
  have haccounted : ∀ {q : Watching} (moves : List WatchMove), q.Accounted →
      (q.goOn moves).Accounted := fun moves h =>
    goOn_induction h (fun _ m h => act_accounted h m) moves
  have hstart : q.Shows x q.world q.ledger.reported := ⟨hx, rfl, hl, rfl⟩
  have htaken := hstart.takeAll x.incoming.length
  have h₀ := haccounted (List.replicate x.incoming.length .take) h
  obtain ⟨first, hfirst⟩ := lookAround_moves h₀ htaken
  have h₁ := haccounted first h₀
  obtain ⟨second, hsecond⟩ := lookAround_moves h₁ hfirst
  have hreported := hsecond.reports
  rw [← goOn_append, ← goOn_append, ← goOn_append] at hreported
  rw [Watcher.run]
  exact ⟨_, hreported⟩

end Watching

end DownloadTriage
