import DownloadTriage.Proofs.Beside
import DownloadTriage.Proofs.Course

/-!
# Between two moves

Each signal ends with a look, so whenever the loop waits it has just looked: if it may leave it has
left, and if nothing is under way and no shutdown was asked for, nothing is queued. These facts hold
before and after every move, though not halfway through one.

* `Run.play_waiting`: they hold along every run.
* `Run.act_beside`: what a move beside the loop leaves alone.
-/

namespace DownloadTriage

namespace Agent

theorem startNext_idle (l : Pipeline) (a : Agent) (w : World)
    (h : (a.startNext l w).1.running = none) : (a.startNext l w).1.queue = [] := by
  unfold startNext at *
  cases hr : a.running with
  | some t => simp [hr] at h
  | none =>
    cases hq : a.queue with
    | cons task rest => simp [hr, hq] at h
    | nil => simp [hq]

/-- Without a shutdown, a look that finds nothing under way leaves nothing queued. -/
theorem look_idle (s : AgentSetup) (a : Agent) (w : World)
    (hc : (a.look s w).1.closing = none) (hr : (a.look s w).1.running = none) :
    (a.look s w).1.queue = [] := by
  unfold look at *
  cases hn : a.closing with
  | none =>
    simp only [hn, Option.isNone_none, if_true] at hr ⊢
    exact startNext_idle _ a w hr
  | some c => simp [hn] at hc

/-- A look leaves the loop if it may be left then. -/
theorem look_left (s : AgentSetup) (a : Agent) (w : World) :
    (a.look s w).1.left = (a.look s w).1.mayLeave (a.look s w).1.lookedAt := rfl

theorem startNext_clock (l : Pipeline) (a : Agent) (w : World) :
    (a.startNext l w).2.clock = w.clock := by
  unfold startNext
  split
  · rename_i task rest _ _
    obtain ⟨is, ps, ss, ht, -⟩ := TaskRun.start_follows l task w
    exact ht.clock
  · rfl

theorem requestShutdown_clock (waitMs : Nat) (ticket : Option Nat) (a : Agent) (w : World) :
    (a.requestShutdown waitMs ticket w).2.clock = w.clock := by
  unfold requestShutdown
  cases a.closing <;> rfl

theorem receive_clock (s : AgentSetup) (signal : Signal) (a : Agent) (w : World) :
    (a.receive s signal w).2.clock = w.clock := by
  cases signal with
  | finished => rfl
  | command c =>
    cases c with
    | detected p => rfl
    | scan p => rfl
    | flush =>
      dsimp only [receive, handle]
      split
      · rfl
      · exact startNext_clock ..
    | shutdown ticket => exact requestShutdown_clock ..
  | orphaned => exact requestShutdown_clock ..
  | tick => rfl

theorem startNext_closing (l : Pipeline) (a : Agent) (w : World) :
    (a.startNext l w).1.closing = a.closing := by
  unfold startNext
  split <;> rfl

theorem look_closing (s : AgentSetup) (a : Agent) (w : World) :
    (a.look s w).1.closing = a.closing := by
  unfold look
  split
  · exact startNext_closing ..
  · rfl

/-- A look is at the clock, and takes no time. -/
theorem look_clock (s : AgentSetup) (a : Agent) (w : World) :
    (a.look s w).1.lookedAt = w.clock ∧ (a.look s w).2.clock = w.clock := by
  unfold look
  split
  · exact ⟨startNext_clock .., startNext_clock ..⟩
  · exact ⟨rfl, rfl⟩

/-- One turn of the loop ends with a look at the clock. -/
theorem step_clock (s : AgentSetup) (signal : Signal) (a : Agent) (w : World) :
    (a.step s signal w).1.lookedAt = w.clock ∧ (a.step s signal w).2.clock = w.clock := by
  obtain ⟨h1, h2⟩ := look_clock s (a.receive s signal w).1 (a.receive s signal w).2
  exact ⟨h1.trans (receive_clock ..), h2.trans (receive_clock ..)⟩

end Agent

namespace Service

@[simp] theorem taken_agent (s : Service) (signal : Signal) : (s.taken signal).agent = s.agent := by
  cases signal <;> rfl

@[simp] theorem taken_setup (s : Service) (signal : Signal) : (s.taken signal).setup = s.setup := by
  cases signal <;> rfl

theorem send_getD (s : Service) (c : Command) :
    ∃ inbox, (s.send c).getD s = { s with inbox } := by
  unfold send
  split
  · exact ⟨s.inbox, rfl⟩
  · exact ⟨_, rfl⟩

theorem taken_rest (s : Service) (signal : Signal) : (s.taken signal).begun = s.begun ∧
    (s.taken signal).ended = s.ended ∧ (s.taken signal).watcher = s.watcher ∧
    (s.taken signal).heartbeat = s.heartbeat := by
  cases signal <;> exact ⟨rfl, rfl, rfl, rfl⟩

/-- A watched directory is announced. -/
def greet (s : Service) (w : World) : World :=
  match s.watcher with
  | some x => w.mark (.emitted (.ready x.dir))
  | none => w

/-- What holds whenever the loop waits, before it begins, and after it was left. -/
structure Waiting (s : Service) : Prop where
  quiet : ∀ h, s.heartbeat = some h → h.Quiet
  /-- Nothing is done before the loop begins. -/
  fresh : s.begun = false → s.agent = .begin
  /-- Nothing is queued while a scan could begin. -/
  idle : s.agent.closing = none → s.agent.running = none → s.agent.queue = []
  /-- The last look did not leave the loop. -/
  stays : s.agent.left = false → s.agent.mayLeave s.agent.lookedAt = false
  /-- The task under way was dropped when the loop was left. -/
  dropped : s.agent.left = true → s.agent.running = none
  /-- Nothing is left that could go on when all has ended. -/
  atEnd : s.ended = true →
    s.agent.left = true ∧ s.heartbeatEnded = true ∧ s.watcher = none

/-- Only a loop that began is left. -/
theorem Waiting.begun {s : Service} (h : s.Waiting) (hl : s.agent.left = true) :
    s.begun = true := by
  cases hb : s.begun with
  | true => rfl
  | false =>
    rw [h.fresh hb] at hl
    cases hl

/-- What a change beside the loop keeps. -/
theorem Waiting.beside {s s' : Service} (h : s.Waiting) (ha : s'.agent = s.agent)
    (hb : s'.begun = s.begun) (hq : ∀ x, s'.heartbeat = some x → x.Quiet)
    (ho : s'.ended = true → s.ended = true ∧
      (s.heartbeatEnded = true → s'.heartbeatEnded = true) ∧
      (s.watcher = none → s'.watcher = none)) : s'.Waiting where
  quiet := hq
  fresh := by rw [ha, hb]; exact h.fresh
  idle := by rw [ha]; exact h.idle
  stays := by rw [ha]; exact h.stays
  dropped := by rw [ha]; exact h.dropped
  atEnd he := by
    obtain ⟨he', hh, hw⟩ := ho he
    obtain ⟨hl, hs, hn⟩ := h.atEnd he'
    exact ⟨by rw [ha, hl], hh hs, hw hn⟩

end Service

namespace Run

theorem start_waiting (o : Outset) : (start o).service.Waiting where
  quiet := by
    intro h hh
    cases hb : o.heartbeat with
    | none => simp [start, Service.begin, hb] at hh
    | some b =>
      have he : h = Heartbeat.begin b.1 b.2 := by simpa [start, Service.begin, hb] using hh.symm
      rw [he]
      trivial
  fresh _ := rfl
  idle _ _ := rfl
  stays _ := rfl
  dropped h := nomatch h
  atEnd h := nomatch h

/-- **A signal** turns the loop once, and if it is left then, lets go of task and heartbeats. -/
theorem hear_eq (r : Run) (signal : Signal) :
    ((r.hear signal).service, (r.hear signal).world) =
      let x := r.service.agent.step r.service.setup signal r.world
      let s := { r.service.taken signal with agent := x.1 }
      if s.agent.left then s.letGo x.2 else (s, x.2) := by
  unfold hear leave turn Agent.step
  simp only [Service.taken_agent, Service.taken_setup]
  split
  · rfl
  · rfl

theorem hear_service (r : Run) (signal : Signal) :
    (r.hear signal).service =
      let s := { r.service.taken signal with
        agent := (r.service.agent.step r.service.setup signal r.world).1 }
      if s.agent.left then
        { s with
          agent := { s.agent with running := none }
          heartbeat := s.heartbeat.map Heartbeat.requestStop }
      else s := by
  have h := congrArg Prod.fst (r.hear_eq signal)
  dsimp only at h ⊢
  rw [h]
  split
  · rfl
  · rfl

theorem hear_waiting {r : Run} (h : r.service.Waiting) {signal : Signal}
    (hb : r.service.begun = true) (hl : r.service.agent.left = false) :
    (r.hear signal).service.Waiting := by
  obtain ⟨hb', he', hw', hh'⟩ := r.service.taken_rest signal
  have he : r.service.ended = false := by
    cases hend : r.service.ended with
    | false => rfl
    | true => rw [(h.atEnd hend).1] at hl; cases hl
  have hleft := Agent.look_left r.service.setup (r.service.agent.receive r.service.setup signal
    r.world).1 (r.service.agent.receive r.service.setup signal r.world).2
  have hidle := Agent.look_idle r.service.setup (r.service.agent.receive r.service.setup signal
    r.world).1 (r.service.agent.receive r.service.setup signal r.world).2
  rw [hear_service]
  unfold Agent.step
  generalize ((r.service.agent.receive r.service.setup signal r.world).1.look r.service.setup
    (r.service.agent.receive r.service.setup signal r.world).2).1 = a at hleft hidle
  dsimp only
  split
  · rename_i hx
    refine ⟨?_, fun h => ?_, fun hc _ => ?_, fun h => ?_, fun _ => rfl, fun h => ?_⟩
    · intro y hy
      obtain ⟨z, hz, rfl⟩ := Option.map_eq_some_iff.1 hy
      exact h.quiet z (hh' ▸ hz)
    · rw [hb', hb] at h; cases h
    -- only a shutdown leaves the loop
    · have hc : a.closing = none := hc
      rw [hx, Agent.mayLeave, hc] at hleft
      cases hleft
    · rw [hx] at h; cases h
    · rw [he', he] at h; cases h
  · rename_i hx
    refine ⟨fun y hy => h.quiet y (hh' ▸ hy), fun h => ?_, hidle, fun h => ?_,
      fun h => absurd h hx, fun h => ?_⟩
    · rw [hb', hb] at h; cases h
    · rw [← hleft]; exact h
    · rw [he', he] at h; cases h

/-- The loop begins with nothing to do. -/
theorem begin_eq {r : Run} (h : r.service.Waiting) (hb : r.service.begun = false) :
    r.begin = ⟨{ r.service with
      begun := true
      agent := { Agent.begin with lookedAt := (r.service.greet r.world).clock } },
      r.service.greet r.world, r.ledger⟩ := by
  unfold begin Service.beginLoop
  rw [h.fresh hb, hb]
  rfl

/-- **Every move** leads from such a state to such a state. -/
theorem act_waiting {r : Run} (h : r.service.Waiting) (m : Move) : (r.act m).service.Waiting := by
  cases m with
  | pass ms files => exact h
  | send c =>
    obtain ⟨inbox, hs⟩ := r.service.send_getD c
    show ((r.service.send c).getD r.service).Waiting
    rw [hs]
    exact h.beside rfl rfl h.quiet fun he => ⟨he, id, id⟩
  | release => exact h.beside rfl rfl h.quiet fun he => ⟨he, id, id⟩
  | notify c =>
    refine h.beside rfl rfl h.quiet fun he => ⟨he, id, fun hw => ?_⟩
    show r.service.watcher.map _ = none
    rw [hw, Option.map_none]
  | begin =>
    by_cases hb : r.service.begun = true
    · show (r.service.beginLoop r.world).1.Waiting
      rw [Service.beginLoop, if_pos hb]
      exact h
    · rw [act, begin_eq h (by simpa using hb)]
      refine ⟨h.quiet, (nomatch ·), fun _ _ => rfl, fun _ => rfl, fun _ => rfl, fun he => ?_⟩
      have hl := (h.atEnd he).1
      rw [h.fresh (by simpa using hb)] at hl
      cases hl
  | hear signal =>
    by_cases hs : r.service.begun ∧ r.service.agent.left = false ∧ r.service.Hears r.world signal
    · rw [act, if_pos hs]
      exact hear_waiting h hs.1 hs.2.1
    · rw [act, if_neg hs]
      exact h
  | resume =>
    show (r.service.resumeTask r.world).1.Waiting
    unfold Service.resumeTask
    split
    · exact h
    · rename_i t ht
      -- a task under way means that the loop was not left
      have hl : r.service.agent.left ≠ true := fun hl => by rw [h.dropped hl] at ht; cases ht
      refine ⟨h.quiet, fun hb => ?_, fun _ => (nomatch ·), fun hs => ?_, fun h => absurd h hl,
        fun he => absurd (h.atEnd he).1 hl⟩
      · rw [h.fresh hb] at ht
        cases ht
      · have := h.stays hs
        unfold Agent.mayLeave Agent.isIdle at *
        rw [ht] at this
        exact this
  | watch =>
    show (r.service.runWatcher r.world).1.Waiting
    unfold Service.runWatcher
    split
    · exact h
    · rename_i x hx
      exact h.beside rfl rfl h.quiet fun he => ⟨he, id, fun hw => by rw [hw] at hx; cases hx⟩
  | beat =>
    show (r.service.beat r.world).1.Waiting
    unfold Service.beat
    split
    · exact h
    · rename_i x hx
      refine h.beside rfl rfl (fun y hy => ?_) fun he => ⟨he, fun hs => ?_, id⟩
      · obtain rfl := Option.some.inj hy
        exact (x.step_calm (h.quiet x hx) r.world).1
      · have hx' : x.isStopped = true := by simpa [Service.heartbeatEnded, hx] using hs
        rw [Service.heartbeatEnded, x.step_stopped hx']
        exact hx'
  | finish =>
    by_cases hf : r.service.agent.left ∧ r.service.heartbeatEnded ∧ r.service.ended = false
    · rw [act, if_pos hf]
      exact ⟨h.quiet, h.fresh, h.idle, h.stays, h.dropped, fun _ => ⟨hf.1, hf.2.1, rfl⟩⟩
    · rw [act, if_neg hf]
      exact h

theorem goOn_waiting {r : Run} (h : r.service.Waiting) (moves : List Move) :
    (r.goOn moves).service.Waiting :=
  goOn_induction (I := fun r => r.service.Waiting) (fun _ m h => act_waiting h m) h moves

/-- **Along every run** these facts hold. -/
theorem play_waiting (o : Outset) (moves : List Move) : (play o moves).service.Waiting :=
  goOn_waiting (start_waiting o) moves

/-! ## What a move leaves alone -/

end Run

/-- Two states that differ beside the loop only. -/
structure Service.Alongside (s s' : Service) : Prop where
  setup : s'.setup = s.setup
  agent : s'.agent = s.agent
  begun : s'.begun = s.begun
  ended : s'.ended = s.ended
  dir : s'.watcher.map (·.dir) = s.watcher.map (·.dir)

/-- The move is none of the loop. -/
def Move.beside : Move → Bool
  | .send _ | .release | .notify _ | .watch | .beat => true
  | _ => false

namespace Run

/-- **A move beside the loop** leaves the loop as it is, and passes no milestone. -/
theorem act_beside {r : Run} (h : r.service.Waiting) {m : Move} (hm : m.beside = true) :
    ∃ s w, r.act m = ⟨s, w, r.ledger⟩ ∧ r.service.Alongside s ∧ r.world.Calm w := by
  cases m with
  | send c =>
    obtain ⟨inbox, hs⟩ := r.service.send_getD c
    exact ⟨{ r.service with inbox }, r.world, by rw [act, hs], ⟨rfl, rfl, rfl, rfl, rfl⟩, .refl _⟩
  | release => exact ⟨_, _, rfl, ⟨rfl, rfl, rfl, rfl, rfl⟩, .refl _⟩
  | notify c =>
    refine ⟨_, _, rfl, ⟨rfl, rfl, rfl, rfl, ?_⟩, .refl _⟩
    show (r.service.watcher.map _).map _ = _
    cases r.service.watcher <;> rfl
  | watch =>
    refine ⟨_, _, rfl, ?_⟩
    unfold Service.runWatcher
    cases hx : r.service.watcher with
    | none => exact ⟨⟨rfl, rfl, rfl, rfl, rfl⟩, .refl _⟩
    | some x =>
      obtain ⟨hd, hc⟩ := x.run_calm r.world
      refine ⟨⟨rfl, rfl, rfl, rfl, ?_⟩, hc⟩
      rw [hx]
      exact congrArg some hd
  | beat =>
    refine ⟨_, _, rfl, ?_⟩
    unfold Service.beat
    cases hx : r.service.heartbeat with
    | none => exact ⟨⟨rfl, rfl, rfl, rfl, rfl⟩, .refl _⟩
    | some x => exact ⟨⟨rfl, rfl, rfl, rfl, rfl⟩, (x.step_calm (h.quiet x hx) r.world).2⟩
  | _ => cases hm

/-- Only a signal asks for a shutdown. -/
theorem act_closing {r : Run} (h : r.service.Waiting) {m : Move}
    (hm : ∀ signal, m ≠ .hear signal) :
    (r.act m).service.agent.closing = r.service.agent.closing := by
  have beside : m.beside = true →
      (r.act m).service.agent.closing = r.service.agent.closing := by
    intro hb
    obtain ⟨s, w, he, hs, -⟩ := act_beside h hb
    rw [he]
    exact congrArg Agent.closing hs.agent
  cases m with
  | pass ms files => rfl
  | send c => exact beside rfl
  | release => exact beside rfl
  | notify c => exact beside rfl
  | begin =>
    show (r.service.beginLoop r.world).1.agent.closing = _
    unfold Service.beginLoop
    split
    · rfl
    · exact Agent.look_closing ..
  | hear signal => exact absurd rfl (hm signal)
  | resume =>
    show (r.service.resumeTask r.world).1.agent.closing = _
    unfold Service.resumeTask
    split <;> rfl
  | watch => exact beside rfl
  | beat => exact beside rfl
  | finish =>
    rw [act]
    split <;> rfl

/-- Each signal ends with a look at the clock. -/
theorem hear_lookedAt (r : Run) (signal : Signal) :
    (r.hear signal).service.agent.lookedAt = r.world.clock := by
  have hlook := (Agent.step_clock r.service.setup signal r.service.agent r.world).1
  rw [hear_service]
  dsimp only
  split
  · exact hlook
  · exact hlook

theorem greet_clock (s : Service) (w : World) : (s.greet w).clock = w.clock := by
  unfold Service.greet
  split <;> rfl

theorem finish_clock (s : Service) (w : World) : (s.finish w).2.clock = w.clock := by
  unfold Service.finish
  dsimp only
  split <;> rfl

/-- Time passes in no other move. -/
theorem act_clock {r : Run} (h : r.service.Waiting) {m : Move}
    (hm : ∀ ms files, m ≠ .pass ms files) : (r.act m).world.clock = r.world.clock := by
  have beside : m.beside = true → (r.act m).world.clock = r.world.clock := by
    intro hb
    obtain ⟨s, w, he, -, hw⟩ := act_beside h hb
    rw [he]
    exact hw.clock
  cases m with
  | pass ms files => exact absurd rfl (hm ms files)
  | send c => exact beside rfl
  | release => exact beside rfl
  | notify c => exact beside rfl
  | begin =>
    cases hb : r.service.begun with
    | true => rw [act, begin, Service.beginLoop, if_pos hb]
    | false =>
      rw [act, begin_eq h hb]
      exact greet_clock ..
  | hear signal =>
    rw [act]
    split
    · have hw := congrArg (fun x => x.2.clock) (r.hear_eq signal)
      dsimp only at hw
      rw [hw]
      split
      · exact (Agent.step_clock ..).2
      · exact (Agent.step_clock ..).2
    · rfl
  | resume =>
    show (r.service.resumeTask r.world).2.clock = _
    unfold Service.resumeTask
    split
    · rfl
    · exact TaskRun.resume_clock ..
  | watch => exact beside rfl
  | beat => exact beside rfl
  | finish =>
    rw [act]
    split
    · exact finish_clock ..
    · rfl

/-- Only a finish ends all. -/
theorem act_going {r : Run} (h : r.service.Waiting) (he : r.service.ended = false) {m : Move}
    (hm : m ≠ .finish) : (r.act m).service.ended = false := by
  have beside : m.beside = true → (r.act m).service.ended = false := by
    intro hb
    obtain ⟨s, w, hact, hs, -⟩ := act_beside h hb
    rw [hact]
    exact hs.ended.trans he
  cases m with
  | pass ms files => exact he
  | send c => exact beside rfl
  | release => exact beside rfl
  | notify c => exact beside rfl
  | begin =>
    show (r.service.beginLoop r.world).1.ended = false
    unfold Service.beginLoop
    split <;> exact he
  | hear signal =>
    rw [act]
    split
    · rw [hear_service]
      have hs := (r.service.taken_rest signal).2.1
      dsimp only
      split
      · rw [hs, he]
      · rw [hs, he]
    · exact he
  | resume =>
    show (r.service.resumeTask r.world).1.ended = false
    unfold Service.resumeTask
    split <;> exact he
  | watch => exact beside rfl
  | beat => exact beside rfl
  | finish => exact absurd rfl hm

end Run

end DownloadTriage
