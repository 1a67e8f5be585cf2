import DownloadTriage.Proofs.Task

/-!
# The course of a task

A task under way consists of fibers: the inspection, then push and scan side by side.

* `TaskRun.start_follows`, `TaskRun.resume_follows`: the fibers are what is left of their programs
  after the turns they took, and the world is the one after these turns.
* `TaskRun.course_ends`: however long it waits and however files change, a task comes to its end.
* `TaskRun.course_outcome`: what it has done then.
-/

namespace DownloadTriage

namespace TaskRun

variable {s : Surroundings} {l : Pipeline}

/-- The task is what is left of inspection, push and scan after their turns. -/
inductive Follows (s : Surroundings) (l : Pipeline) :
    TaskRun → List Turn → List Turn → List Turn → Prop where
  | inspecting {task : ScanTask} {f : Fiber Bool} {is : List Turn}
      (hf : f.Follows s (Pipeline.inspect task) is) :
      Follows s l ⟨task, .inspecting f⟩ is [] []
  | skipped {task : ScanTask} {is : List Turn}
      (hf : (Fiber.finished false).Follows s (Pipeline.inspect task) is) :
      Follows s l ⟨task, .finished none⟩ is [] []
  | working {task : ScanTask} {push : Fiber PushOutcome} {scan : Fiber Report}
      {is ps ss : List Turn}
      (hf : (Fiber.finished true).Follows s (Pipeline.inspect task) is)
      (hp : push.Follows s (l.target.push task.path task.filename) ps)
      (hs : scan.Follows s (l.scan task) ss) :
      Follows s l ⟨task, .working push scan⟩ is ps ss
  | finished {task : ScanTask} {o : PushOutcome} {r : Report} {is ps ss : List Turn}
      (hf : (Fiber.finished true).Follows s (Pipeline.inspect task) is)
      (hp : (Fiber.finished o).Follows s (l.target.push task.path task.filename) ps)
      (hs : (Fiber.finished r).Follows s (l.scan task) ss) :
      Follows s l ⟨task, .finished (some r)⟩ is ps ss

theorem join_follows {task : ScanTask} {push : Fiber PushOutcome} {scan : Fiber Report}
    {is ps ss : List Turn} (hf : (Fiber.finished true).Follows s (Pipeline.inspect task) is)
    (hp : push.Follows s (l.target.push task.path task.filename) ps)
    (hs : scan.Follows s (l.scan task) ss) : Follows s l ⟨task, join push scan⟩ is ps ss := by
  cases push with
  | waiting wake r next => exact .working hf hp hs
  | finished o =>
    cases scan with
    | waiting wake r next => exact .working hf hp hs
    | finished r => exact .finished hf hp hs

theorem work_follows {task : ScanTask} {is : List Turn} (w : World)
    (hf : (Fiber.finished true).Follows w.around (Pipeline.inspect task) is) :
    ∃ ps ss, Taken w (ps ++ ss) (work l task w).2 ∧
      Follows w.around l ⟨task, (work l task w).1⟩ is ps ss := by
  obtain ⟨ps, hps, hp⟩ := (l.target.push task.path task.filename).start_follows w
  obtain ⟨ss, hss, hs⟩ := (l.scan task).start_follows
    ((l.target.push task.path task.filename).start w).2
  rw [hps.around.1] at hs
  exact ⟨ps, ss, hps.append hss, join_follows hf hp hs⟩

theorem inspected_follows {task : ScanTask} {r : Fiber Bool × World} {is : List Turn}
    (h : r.1.Follows r.2.around (Pipeline.inspect task) is) :
    ∃ ps ss, Taken r.2 (ps ++ ss) (inspected l task r).2 ∧
      Follows r.2.around l (inspected l task r).1 is ps ss := by
  obtain ⟨f, w⟩ := r
  cases f with
  | waiting wake r next => exact ⟨[], [], rfl, .inspecting h⟩
  | finished b =>
    cases b with
    | false => exact ⟨[], [], rfl, .skipped h⟩
    | true => exact work_follows w h

/-- **A task that starts** takes turns of its inspection, its push and its scan, in this order. -/
theorem start_follows (l : Pipeline) (task : ScanTask) (w : World) :
    ∃ is ps ss, Taken w (is ++ ps ++ ss) (start l task w).2 ∧
      Follows w.around l (start l task w).1 is ps ss := by
  obtain ⟨is, his, hf⟩ := (Pipeline.inspect task).start_follows w
  rw [← his.around.1] at hf
  obtain ⟨ps, ss, ht, h⟩ := inspected_follows hf
  rw [his.around.1] at h
  exact ⟨is, ps, ss, by rw [List.append_assoc]; exact his.append ht, h⟩

/-- **A task that goes on** takes further turns. -/
theorem resume_follows {t : TaskRun} {w : World} {is ps ss : List Turn}
    (h : Follows w.around l t is ps ss) :
    ∃ is' ps' ss', Taken w (is' ++ ps' ++ ss') (t.resume l w).2 ∧
      Follows w.around l (t.resume l w).1 (is ++ is') (ps ++ ps') (ss ++ ss') := by
  cases h with
  | @inspecting task f _ hf =>
    obtain ⟨is', his, hf'⟩ := Fiber.resume_follows hf
    rw [← his.around.1] at hf'
    obtain ⟨ps', ss', ht, h'⟩ := inspected_follows hf'
    rw [his.around.1] at h'
    exact ⟨is', ps', ss', by rw [List.append_assoc]; exact his.append ht, h'⟩
  | skipped hf => exact ⟨[], [], [], rfl, by simpa using .skipped hf⟩
  | @working task push scan _ _ _ hf hp hs =>
    -- the push goes on first, so the scan sees the world it left
    obtain ⟨ps', hps, hp'⟩ := Fiber.resume_follows hp
    rw [← hps.around.1] at hs
    obtain ⟨ss', hss, hs'⟩ := Fiber.resume_follows hs
    rw [hps.around.1] at hs'
    exact ⟨[], ps', ss', hps.append hss, by rw [List.append_nil]; exact join_follows hf hp' hs'⟩
  | finished hf hp hs => exact ⟨[], [], [], rfl, by simpa using .finished hf hp hs⟩

/-- A task stays the one that it is. -/
theorem inspected_task (l : Pipeline) (task : ScanTask) (r : Fiber Bool × World) :
    (inspected l task r).1.task = task := by
  obtain ⟨f, w⟩ := r
  cases f with
  | waiting wake r next => rfl
  | finished b => cases b <;> rfl

theorem start_task (l : Pipeline) (task : ScanTask) (w : World) :
    (start l task w).1.task = task := inspected_task ..

theorem resume_task (l : Pipeline) (t : TaskRun) (w : World) :
    (t.resume l w).1.task = t.task := by
  obtain ⟨task, stage⟩ := t
  cases stage with
  | inspecting f => exact inspected_task ..
  | working push scan => rfl
  | finished r => rfl

theorem inspected_clock (l : Pipeline) (task : ScanTask) (r : Fiber Bool × World) :
    (inspected l task r).2.clock = r.2.clock := by
  obtain ⟨f, w⟩ := r
  cases f with
  | waiting wake r next => rfl
  | finished b =>
    cases b with
    | false => rfl
    | true =>
      obtain ⟨ps, hp, -⟩ := (l.target.push task.path task.filename).start_follows w
      obtain ⟨ss, hs, -⟩ := (l.scan task).start_follows
        ((l.target.push task.path task.filename).start w).2
      exact hs.clock.trans hp.clock

/-- A task that goes on takes no time. -/
theorem resume_clock (l : Pipeline) (t : TaskRun) (w : World) :
    (t.resume l w).2.clock = w.clock := by
  obtain ⟨task, stage⟩ := t
  cases stage with
  | inspecting f => exact (inspected_clock ..).trans (f.resume_clock w)
  | working push scan => exact (scan.resume_clock _).trans (push.resume_clock w)
  | finished r => rfl

/-! ## What the turns are -/

variable {t : TaskRun} {is ps ss : List Turn}

/-- The turns of the inspection only read. -/
theorem Follows.inspection (h : Follows s l t is ps ss) :
    (∀ d ∈ deedsOf is, ∃ line, d = .logged line) ∧ ∀ t ∈ is, t.request.reads = true := by
  have key : ∃ us a, (∀ d ∈ deedsOf (is ++ us), ∃ line, d = .logged line) ∧
      (∀ t ∈ is ++ us, t.request.reads = true) ∧ ∃ u ∈ is ++ us, a = true ↔
        Pipeline.Scannable u.world.files t.task.path := by
    cases h with
    | inspecting hf => exact hf.exists (Pipeline.inspect_ensures _)
    | skipped hf => exact hf.exists (Pipeline.inspect_ensures _)
    | working hf => exact hf.exists (Pipeline.inspect_ensures _)
    | finished hf => exact hf.exists (Pipeline.inspect_ensures _)
  -- what holds of all turns of the inspection holds of the first ones
  obtain ⟨us, a, hd, hr, -⟩ := key
  exact ⟨fun d h => hd d (by simp [h]), fun t h => hr t (by simp [h])⟩

/-- The turns of the push only push. -/
theorem Follows.pushes (h : Follows s l t is ps ss) : ∀ t ∈ ps, t.request.pushes = true := by
  have key : ∃ us, ∀ t ∈ ps ++ us, t.request.pushes = true := by
    cases h with
    | inspecting hf => exact ⟨[], by simp⟩
    | skipped hf => exact ⟨[], by simp⟩
    | working hf hp =>
      obtain ⟨us, -, h⟩ := hp.exists (l.target.push_only _ _).ensures
      exact ⟨us, h⟩
    | finished hf hp =>
      obtain ⟨us, -, h⟩ := hp.exists (l.target.push_only _ _).ensures
      exact ⟨us, h⟩
  obtain ⟨us, h⟩ := key
  exact fun t ht => h t (by simp [ht])

/-! ## To the end -/

/-- The task comes to its end if it is resumed whenever it is due. -/
inductive Ends (l : Pipeline) : TaskRun → Prop where
  | now {t : TaskRun} (h : t.result?.isSome) : Ends l t
  | later {t : TaskRun}
      (h : ∀ w : World, (∀ d, t.due = some d → d ≤ w.clock) → Ends l (t.resume l w).1) : Ends l t

theorem join_ends {task : ScanTask} {push : Fiber PushOutcome} {scan : Fiber Report}
    (hp : push.Ends) (hs : scan.Ends) : Ends l ⟨task, join push scan⟩ := by
  -- each time at least one of the two goes on, so the inductions are nested
  induction hp generalizing scan with
  | finished o =>
    induction hs with
    | finished r => exact .now rfl
    | waiting h ih => exact .later fun w hw => ih w (hw _ rfl)
  | @waiting wake r next h ih =>
    induction hs with
    | finished a => exact .later fun w hw => ih w (hw _ rfl) (.finished a)
    | @waiting wake' r' next' h' ih' =>
      refine .later fun w hw => ?_
      have hmin : min wake wake' ≤ w.clock := hw _ rfl
      have hstep : ((⟨task, join (.waiting wake r next) (.waiting wake' r' next')⟩ : TaskRun).resume
          l w).1 = ⟨task, join ((Fiber.waiting wake r next).resume w).1 ((Fiber.waiting wake' r'
            next').resume ((Fiber.waiting wake r next).resume w).2).1⟩ := rfl
      rw [hstep]
      by_cases hpush : wake ≤ w.clock
      · exact ih w hpush (Fiber.Ends.waiting h').resume
      · rw [Fiber.resume, if_neg hpush]
        exact ih' w (by omega)

theorem work_ends (l : Pipeline) (task : ScanTask) (w : World) :
    Ends l ⟨task, (work l task w).1⟩ :=
  join_ends ((l.target.push task.path task.filename).start_ends w) ((l.scan task).start_ends _)

theorem inspected_ends {task : ScanTask} {f : Fiber Bool} (hf : f.Ends) (w : World) :
    Ends l (inspected l task (f, w)).1 := by
  induction hf generalizing w with
  | finished b =>
    cases b with
    | false => exact .now rfl
    | true => exact work_ends l task w
  | waiting h ih => exact .later fun w' hw => ih w' (hw _ rfl) _

theorem start_ends (l : Pipeline) (task : ScanTask) (w : World) : Ends l (start l task w).1 :=
  inspected_ends ((Pipeline.inspect task).start_ends w) _

/-! ## A whole course -/

/-- What happens before a task is resumed: time passes until it is due, and a while longer, and
files change. -/
structure Pause where
  lateMs : Nat
  files : FileTree

/-- The world when the task is resumed. -/
def Pause.after (p : Pause) (t : TaskRun) (w : World) : World :=
  { w with clock := max w.clock (t.due.getD 0) + p.lateMs, files := p.files }

/-- A task under way and its world after so many pauses. -/
def course (l : Pipeline) (pauses : Nat → Pause) (x : TaskRun × World) : Nat → TaskRun × World
  | 0 => x
  | n + 1 =>
    let y := course l pauses x n
    y.1.resume l ((pauses n).after y.1 y.2)

variable {task : ScanTask} {w : World} {pauses : Nat → Pause} {x : TaskRun × World}

/-- The files are those at the start or came in one of the first pauses. -/
def Seen (w : World) (pauses : Nat → Pause) (n : Nat) (t : FileTree) : Prop :=
  t = w.files ∨ ∃ k < n, t = (pauses k).files

theorem Seen.succ {n : Nat} {t : FileTree} (h : Seen w pauses n t) : Seen w pauses (n + 1) t :=
  h.imp_right fun ⟨k, hk, ht⟩ => ⟨k, by omega, ht⟩

/-- What the turns of a task led to: only those of the scan passed milestones, and it is known which
files were seen until the collector was recorded. -/
structure History (w : World) (seen : FileTree → Prop) (v : World) (is ps ss : List Turn) :
    Prop where
  around : v.around = w.around
  deeds : ∃ ds, v.deeds = w.deeds ++ ds ∧ milestones ds = milestones (deedsOf ss) ∧
    (ps = [] → ss = [] → ds = deedsOf is)
  inspected : ∀ t ∈ is, seen t.world.files
  scanned : ∀ t ∈ ss.takeWhile fun t => !t.request.records, seen t.world.files

theorem History.begin (w : World) (seen : FileTree → Prop) : History w seen w [] [] [] :=
  ⟨rfl, ⟨[], by simp⟩, by simp, by simp⟩

/-- Before the task goes on, time passes and files change. -/
theorem History.pause {n : Nat} {v : World} {is ps ss : List Turn}
    (h : History w (Seen w pauses n) v is ps ss) (t : TaskRun) :
    History w (Seen w pauses (n + 1)) ((pauses n).after t v) is ps ss :=
  ⟨h.around, h.deeds, fun t ht => (h.inspected t ht).succ, fun t ht => (h.scanned t ht).succ⟩

/-- **What becomes of a task**, with the files as it sees them: a file that is not there or too
large leaves log lines and nothing else; otherwise one report is told, the same report is then handed
over, and the task results in it. -/
def Outcome (s : Surroundings) (task : ScanTask) (seen : FileTree → Prop) (result : Option Report)
    (ds : List Deed) : Prop :=
  ∃ inspected, seen inspected ∧
    (¬ Pipeline.Scannable inspected task.path →
      result = none ∧ ∀ d ∈ ds, ∃ line, d = .logged line) ∧
    (Pipeline.Scannable inspected task.path →
      ∃ r front hashed probed decoded, seen hashed ∧ seen probed ∧ seen decoded ∧
        result = some r ∧ milestones ds = front ++ [.emitted (.report r), .submitted r] ∧
        Pipeline.Finding s task hashed probed decoded front r)

theorem Follows.outcome {seen : FileTree → Prop} {t : TaskRun} {v : World} {is ps ss : List Turn}
    (hf : Follows s l t is ps ss) (h : History w seen v is ps ss) (hover : t.result?.isSome) :
    ∃ result ds, t.result? = some result ∧ v.deeds = w.deeds ++ ds ∧
      Outcome s t.task seen result ds := by
  obtain ⟨ds, hds, hm, hq⟩ := h.deeds
  cases hf with
  | inspecting hf => cases hover
  | working hf hp hs => cases hover
  | skipped hf =>
    obtain ⟨hlog, -, t, ht, hb⟩ := hf.result (Pipeline.inspect_ensures _)
    refine ⟨none, ds, rfl, hds, t.world.files, h.inspected t ht, fun _ => ⟨rfl, ?_⟩,
      fun hscan => nomatch hb.2 hscan⟩
    rw [hq rfl rfl]
    exact hlog
  | finished hf hp hs =>
    obtain ⟨-, -, t, ht, hb⟩ := hf.result (Pipeline.inspect_ensures _)
    -- a scan that was finished has its terminal report behind its front
    obtain ⟨front, back, w₁, w₂, rfl, hfront, hback, t₁, ht₁, t₂, ht₂, t₃, ht₃, hfind⟩ :=
      hs.result (l.scan_ensures _)
    have hseen : ∀ t ∈ front, seen t.world.files := by
      intro t ht
      refine h.scanned t ?_
      rw [List.takeWhile_append_of_pos fun t ht => by rw [hfront t ht]; rfl]
      exact List.mem_append_left _ ht
    refine ⟨_, ds, rfl, hds, t.world.files, h.inspected t ht, fun hno => absurd (hb.1 rfl) hno,
      fun _ => ⟨_, milestones (deedsOf front), _, _, _, hseen t₁ ht₁, hseen t₂ ht₂, hseen t₃ ht₃,
        rfl, ?_, hfind⟩⟩
    have hb := milestones_deedsOf fun t ht => not_isMilestone_of_collects (hback t ht)
    simp [hm, Turn.deeds_eq, milestones_cons, Deed.isMilestone, hb]

end TaskRun

end DownloadTriage
