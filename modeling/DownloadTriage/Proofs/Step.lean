import Mathlib.Logic.Relation
import DownloadTriage.Proofs.Course
import DownloadTriage.Proofs.Waiting

/-!
# What a move is made of

A move of a run is made of **steps**, each of which says all it changes. What every step preserves
holds along every run.

* `Run.act_steps`: every move is made of steps, and a task sees the files as they stand before
  the move.
-/

namespace DownloadTriage

namespace Agent

theorem startNext_left (l : Pipeline) (a : Agent) (w : World) :
    (a.startNext l w).1.left = a.left := by
  unfold startNext
  split <;> rfl

/-- Files only change when a task begins. -/
theorem startNext_files (l : Pipeline) (a : Agent) (w : World)
    (h : (a.startNext l w).1.running = none) : (a.startNext l w).2.files = w.files := by
  unfold startNext at *
  split
  · rename_i hr hq
    rw [hr, hq] at h
    cases h
  · rfl

theorem requestShutdown_left (waitMs : Nat) (ticket : Option Nat) (a : Agent) (w : World) :
    (a.requestShutdown waitMs ticket w).1.left = a.left ∧
      (a.requestShutdown waitMs ticket w).1.closing ≠ none := by
  unfold requestShutdown
  cases a.closing <;> exact ⟨rfl, fun h => nomatch h⟩

theorem receive_left (s : AgentSetup) (signal : Signal) (a : Agent) (w : World) :
    (a.receive s signal w).1.left = a.left := by
  cases signal with
  | finished => rfl
  | command c =>
    cases c with
    | detected p => rfl
    | scan p => rfl
    | flush =>
      dsimp only [receive, handle]
      split
      · rfl
      · exact startNext_left ..
    | shutdown ticket => exact (requestShutdown_left ..).1
  | orphaned => exact (requestShutdown_left ..).1
  | tick => rfl

theorem receive_files (s : AgentSetup) (signal : Signal) (a : Agent) (w : World)
    (hc : (a.receive s signal w).1.closing = none)
    (hr : (a.receive s signal w).1.running = none) : (a.receive s signal w).2.files = w.files := by
  cases signal with
  | finished => rfl
  | command c =>
    cases c with
    | detected p => rfl
    | scan p => rfl
    | flush =>
      dsimp only [receive, handle] at *
      split
      · rfl
      · rename_i h
        rw [if_neg h] at hr
        exact startNext_files _ _ _ hr
    | shutdown ticket => exact absurd hc (requestShutdown_left ..).2
  | orphaned => exact absurd hc (requestShutdown_left ..).2
  | tick => rfl

end Agent

namespace Run

/-- One step. Until the loop is left only `files` are seen by a task. -/
inductive Step (files : FileTree) : Run → Run → Prop where
  /-- Time passes and files change. -/
  | pass {r : Run} (ms : Nat) (files' : FileTree) :
      Step files r
        { r with world := { r.world with clock := r.world.clock + ms, files := files' } }
  /-- Something goes on beside the loop. -/
  | alongside {r : Run} {s : Service} {w : World} (hs : r.service.Alongside s)
      (hw : r.world.Calm w) : Step files r ⟨s, w, r.ledger⟩
  /-- The loop begins, and a watched directory is announced. -/
  | greet {r : Run} (hb : r.service.begun = false) :
      Step files r ⟨{ r.service with begun := true }, r.service.greet r.world, r.ledger⟩
  /-- A file is asked for: it is announced and queued. -/
  | ask {r : Run} (task : ScanTask) (line : LogLine) (hb : r.service.begun = true)
      (hl : r.service.agent.left = false) :
      Step files r
        ⟨{ r.service with
            agent := { r.service.agent with queue := r.service.agent.queue ++ [task] } },
          (r.world.say [line]).mark (.emitted (.scanStarted task.filename task.path task.manual)),
          { r.ledger with asked := r.ledger.asked ++ [task] }⟩
  /-- A shutdown is asked for; a second one keeps the deadline of the first. -/
  | close {r : Run} {c : Closing} {orphaned : Bool} {w : World}
      (hc : ∀ c', r.service.agent.closing = some c' → c.deadline = c'.deadline)
      (hw : r.world.Calm w) :
      Step files r
        ⟨{ r.service with agent := { r.service.agent with closing := some c, orphaned } }, w,
          r.ledger⟩
  /-- The task under way is over. -/
  | settle {r : Run} {t : TaskRun} {result : Option Report}
      (ht : r.service.agent.running = some t) (hr : t.result? = some result) :
      Step files r
        ⟨{ r.service with agent := { r.service.agent with running := none } }, r.world,
          { r.ledger with finished := r.ledger.finished ++ [(t.task, result)] }⟩
  /-- The next task begins. -/
  | start {r : Run} {task : ScanTask} {rest : List ScanTask}
      (hl : r.service.agent.left = false) (hc : r.service.agent.closing = none)
      (hr : r.service.agent.running = none) (hq : r.service.agent.queue = task :: rest)
      (hf : r.world.files = files) :
      Step files r
        ⟨{ r.service with agent := { r.service.agent with
            queue := rest
            running := some (TaskRun.start r.service.setup.pipeline task r.world).1 } },
          (TaskRun.start r.service.setup.pipeline task r.world).2,
          { r.ledger with begun := r.ledger.begun ++ [task] }⟩
  /-- The loop looks whether it is left. -/
  | look {r : Run} (hl : r.service.agent.left = false) :
      Step files r
        ⟨{ r.service with agent := { r.service.agent with
            lookedAt := r.world.clock
            left := r.service.agent.mayLeave r.world.clock } }, r.world, r.ledger⟩
  /-- The loop was left: the task under way is dropped. -/
  | leave {r : Run} (hl : r.service.agent.left = true) :
      Step files r
        ⟨(r.service.letGo r.world).1, (r.service.letGo r.world).2,
          r.ledger.slot r.service.agent.running none⟩
  /-- The task under way goes on. -/
  | resume {r : Run} {t : TaskRun} (ht : r.service.agent.running = some t)
      (hf : r.world.files = files) :
      Step files r
        ⟨{ r.service with agent := { r.service.agent with
            running := some (t.resume r.service.setup.pipeline r.world).1 } },
          (t.resume r.service.setup.pipeline r.world).2, r.ledger⟩
  /-- All is over. -/
  | finish {r : Run} (hb : r.service.begun = true) (hl : r.service.agent.left = true)
      (hr : r.service.agent.running = none) (he : r.service.ended = false) :
      Step files r ⟨(r.service.finish r.world).1, (r.service.finish r.world).2, r.ledger⟩

/-- Any number of steps. -/
abbrev Steps (files : FileTree) : Run → Run → Prop := Relation.ReflTransGen (Step files)

variable {files : FileTree}

/-- What every step preserves is preserved by any number of them. -/
theorem Steps.preserves {I : Run → Prop} (hI : ∀ r r', Step files r r' → I r → I r') {r r' : Run}
    (hs : Steps files r r') (h : I r) : I r' := by
  induction hs with
  | refl => exact h
  | tail _ hstep ih => exact hI _ _ hstep ih

/-! ## The signals -/

/-- The agent becomes another with the same task under way. -/
theorem turn_same (r : Run) {a : Agent} (w : World) (h : a.running = r.service.agent.running) :
    r.turn (a, w) = ⟨{ r.service with agent := a }, w, r.ledger⟩ := by
  unfold turn
  dsimp only
  rw [h, Ledger.slot_self]

theorem startNext_steps (r : Run) (hl : r.service.agent.left = false)
    (hc : r.service.agent.closing = none)
    (hf : r.service.agent.running = none → r.world.files = files) :
    Steps files r (r.turn (r.service.agent.startNext r.service.setup.pipeline r.world)) := by
  unfold Agent.startNext
  cases hr : r.service.agent.running with
  | some t =>
    dsimp only
    rw [turn_same _ _ rfl]
  | none =>
    cases hq : r.service.agent.queue with
    | nil =>
      dsimp only
      rw [turn_same _ _ rfl]
    | cons task rest =>
      unfold turn
      dsimp only [Ledger.slot]
      rw [hr]
      dsimp only
      rw [TaskRun.start_task]
      exact .single (.start hl hc hr hq (hf hr))

theorem close_steps (r : Run) (waitMs : Nat) (ticket : Option Nat) {w : World}
    (hw : r.world.Calm w) (orphaned : Bool) :
    Steps files r
      (r.turn (Agent.requestShutdown waitMs ticket { r.service.agent with orphaned } w)) := by
  have hstep : ∀ c w', (∀ c', r.service.agent.closing = some c' → c.deadline = c'.deadline) →
      r.world.Calm w' →
      Steps files r (r.turn ({ r.service.agent with closing := some c, orphaned }, w')) := by
    intro c w' hc hw'
    rw [turn_same]
    · exact .single (.close hc hw')
    · rfl
  unfold Agent.requestShutdown
  cases hc : r.service.agent.closing with
  | none =>
    refine hstep _ _ (fun c' hc' => ?_) (hw.trans (.say w _))
    rw [hc] at hc'
    cases hc'
  | some c =>
    refine hstep _ _ (fun c' hc' => ?_) hw
    rw [hc] at hc'
    obtain rfl := Option.some.inj hc'
    rfl

theorem ask_steps (r : Run) (task : ScanTask) (line : LogLine) (hb : r.service.begun = true)
    (hl : r.service.agent.left = false) :
    Steps files r (turn { r with ledger := { r.ledger with asked := r.ledger.asked ++ [task] } }
      (r.service.agent.enqueue task (r.world.say [line]))) := by
  unfold Agent.enqueue
  rw [turn_same]
  · exact .single (.ask task line hb hl)
  · rfl

/-- What a signal does is made of steps. -/
theorem receive_steps (r : Run) (signal : Signal) (hb : r.service.begun = true)
    (hl : r.service.agent.left = false)
    (hs : signal = .finished → (r.service.agent.running.bind TaskRun.result?).isSome)
    (hf : r.world.files = files) :
    Steps files r (turn { r with ledger := r.ledger.hear r.world.files signal }
      (r.service.agent.receive r.service.setup signal r.world)) := by
  cases signal with
  | finished =>
    obtain ⟨result, hres⟩ := Option.isSome_iff_exists.1 (hs rfl)
    obtain ⟨t, hr, ht⟩ := Option.bind_eq_some_iff.1 hres
    unfold turn Ledger.slot
    dsimp only [Agent.receive]
    rw [hr]
    dsimp only
    rw [ht]
    exact .single (.settle hr ht)
  | command c =>
    cases c with
    | detected p => exact ask_steps r (.ofPath p false) _ hb hl
    | scan p => exact ask_steps r (.ofPath (Agent.absolute r.world.files p) true) _ hb hl
    | flush =>
      dsimp only [Agent.receive, Agent.handle]
      cases hc : r.service.agent.closing with
      | some c =>
        rw [Option.isSome_some, if_pos rfl, turn_same]
        · exact .refl
        · rfl
      | none => exact startNext_steps r hl hc fun _ => hf
    | shutdown ticket =>
      exact close_steps r r.service.setup.shutdownWaitMs (some ticket) (.refl _)
        r.service.agent.orphaned
  | orphaned => exact close_steps r r.service.setup.shutdownWaitMs none (.say _ _) true
  | tick =>
    dsimp only [Agent.receive]
    rw [turn_same]
    · exact .refl
    · rfl

/-- The look before a wait is made of steps. -/
theorem look_steps (r : Run) (hl : r.service.agent.left = false)
    (hf : r.service.agent.closing = none → r.service.agent.running = none → r.world.files = files) :
    Steps files r (r.turn (r.service.agent.look r.service.setup r.world)) := by
  unfold Agent.look
  cases hc : r.service.agent.closing with
  | none =>
    rw [Option.isNone_none, if_pos rfl]
    refine .tail (startNext_steps r hl hc (hf hc)) (.look ?_)
    exact (Agent.startNext_left ..).trans hl
  | some c =>
    rw [Option.isNone_some, if_neg Bool.false_ne_true, turn_same]
    · exact .single (.look hl)
    · rfl

theorem leave_steps (r : Run) : Steps files r r.leave := by
  unfold leave
  split
  · rename_i hl
    exact .single (.leave hl)
  · exact .refl

/-- **A signal** is heard in steps. -/
theorem hear_steps {r : Run} {signal : Signal} (hb : r.service.begun = true)
    (hl : r.service.agent.left = false) (hs : r.service.Hears r.world signal) :
    Steps r.world.files r (r.hear signal) := by
  -- take the command, do what the signal says, look, and leave
  obtain ⟨hb', he, hw, hh⟩ := r.service.taken_rest signal
  have htake : Steps r.world.files r ⟨r.service.taken signal, r.world, r.ledger⟩ :=
    .single (.alongside ⟨r.service.taken_setup signal, r.service.taken_agent signal, hb', he,
      by rw [hw]⟩ (.refl _))
  refine ((htake.trans (receive_steps ⟨r.service.taken signal, r.world, r.ledger⟩ signal ?_ ?_ ?_
    rfl)).trans (look_steps _ ?_ ?_)).trans (leave_steps _)
  · rw [hb', hb]
  · rw [Service.taken_agent, hl]
  · rintro rfl
    exact hs
  · exact (Agent.receive_left ..).trans (by rw [Service.taken_agent, hl])
  · exact Agent.receive_files _ _ _ _

/-! ## The moves -/

/-- **Every move is made of steps.** -/
theorem act_steps {r : Run} (h : r.service.Waiting) (m : Move) :
    Steps r.world.files r (r.act m) := by
  have beside : m.beside = true → Steps r.world.files r (r.act m) := by
    intro hb
    obtain ⟨s, w, he, hs, hw⟩ := act_beside h hb
    rw [he]
    exact .single (.alongside hs hw)
  cases m with
  | pass ms files => exact .single (.pass ms files)
  | send c => exact beside rfl
  | release => exact beside rfl
  | notify c => exact beside rfl
  | begin =>
    cases hb : r.service.begun with
    | true =>
      rw [act, begin, Service.beginLoop, if_pos hb, Ledger.slot_self]
    | false =>
      rw [act, begin_eq h hb]
      -- a loop that begins is fresh, so the look finds nothing to do
      have hgreet : Step r.world.files r
          ⟨{ r.service with begun := true, agent := .begin }, r.service.greet r.world,
            r.ledger⟩ := by
        rw [← h.fresh hb]
        exact .greet hb
      exact .tail (.single hgreet) (.look rfl)
  | hear signal =>
    by_cases hs : r.service.begun ∧ r.service.agent.left = false ∧ r.service.Hears r.world signal
    · rw [act, if_pos hs]
      exact hear_steps hs.1 hs.2.1 hs.2.2
    · rw [act, if_neg hs]
  | resume =>
    show Steps _ r ⟨(r.service.resumeTask r.world).1, (r.service.resumeTask r.world).2, r.ledger⟩
    unfold Service.resumeTask
    cases ht : r.service.agent.running with
    | none => exact .refl
    | some t => exact .single (.resume ht rfl)
  | watch => exact beside rfl
  | beat => exact beside rfl
  | finish =>
    by_cases hf : r.service.agent.left ∧ r.service.heartbeatEnded ∧ r.service.ended = false
    · rw [act, if_pos hf]
      exact .single (.finish (h.begun hf.1) hf.1 (h.dropped hf.1) hf.2.2)
    · rw [act, if_neg hf]

/-- **What every step preserves is preserved by all moves.** -/
theorem goOn_preserves {I : Run → Prop} (hI : ∀ files r r', Step files r r' → I r → I r') {r : Run}
    (hw : r.service.Waiting) (h : I r) (moves : List Move) : I (r.goOn moves) := by
  have key := goOn_induction (I := fun r => r.service.Waiting ∧ I r)
    (fun r m h => ⟨act_waiting h.1 m, (act_steps h.1 m).preserves (hI _) h.2⟩) ⟨hw, h⟩ moves
  exact key.2

theorem play_preserves {I : Run → Prop} (hI : ∀ files r r', Step files r r' → I r → I r')
    {o : Outset} (h : I (start o)) (moves : List Move) : I (play o moves) :=
  goOn_preserves hI (start_waiting o) h moves

end Run

end DownloadTriage
