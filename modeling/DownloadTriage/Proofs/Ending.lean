import DownloadTriage.Proofs.Deadline

/-!
# The agent ends

An agent that shuts down comes to its end, whatever is under way. Three things could keep it from
there, and none does: the machine turns its loop until nothing is left to be heard, as each turn spends
something and there are turns enough (`run_hears`); the loop is left by a poll after the deadline; and
heartbeats that are asked to stop finish the one under way and begin no other (`Heartbeat.Winding`).

`Service.Ends` is said of a state and a time: if the machine goes on from there for long enough, all
has ended. It is proved backwards, from one turn of the machine to the one before.

* `Service.ends_of_turn`: one turn of the machine.
* `Service.ends_of_left`: the end of an agent whose loop was left.
* `Run.ends_of_closing`: the end of an agent that was asked to shut down.
* `Run.play_ends`: the end of a run in which a shutdown is still to be heard of.
-/

namespace DownloadTriage

/-! ## Heartbeats that are asked to stop -/

theorem Fiber.ends {α : Type} (f : Fiber α) : f.Ends := by
  cases f with
  | finished a => exact .finished a
  | waiting wake r next =>
    refine .waiting fun w hw => ?_
    rw [resume, if_pos hw]
    exact Program.start_ends _ _

namespace Heartbeat

/-- Nothing keeps the loop from going on. -/
def Due (h : Heartbeat) (w : World) : Prop := ∀ t, h.due w = some t → t ≤ w.clock

theorem step_of_not_due {h : Heartbeat} {w : World} (hn : ¬ h.Due w) : h.step w = (h, w) := by
  obtain ⟨client, period, phase, stop⟩ := h
  have hlate : ∀ beat : Fiber Bool, (¬ ∀ t, beat.due = some t → t ≤ w.clock) →
      (∃ wake r next, beat = .waiting wake r next) ∧ beat.resume w = (beat, w) := by
    intro beat hb
    cases beat with
    | finished b => exact absurd nofun hb
    | waiting wake r next =>
      refine ⟨⟨wake, r, next, rfl⟩, ?_⟩
      rw [Fiber.resume, if_neg fun hw => hb fun t ht => Option.some.inj ht ▸ hw]
  cases phase with
  | fresh => exact absurd (fun t ht => Nat.le_of_eq (Option.some.inj ht).symm) hn
  | starting beat =>
    obtain ⟨⟨wake, r, next, rfl⟩, hr⟩ := hlate beat hn
    simp only [step, hr]
    rfl
  | beating beat tick =>
    obtain ⟨⟨wake, r, next, rfl⟩, hr⟩ := hlate beat hn
    simp only [step, hr]
    rfl
  | waiting tick =>
    cases stop with
    | true => exact absurd (fun t ht => Nat.le_of_eq (Option.some.inj ht).symm) hn
    | false =>
      have htick : ¬ tick ≤ w.clock := fun ht => hn fun t he => Option.some.inj he ▸ ht
      simp only [step, Bool.false_eq_true, if_false, if_neg htick]
  | broken =>
    cases stop with
    | true => exact absurd (fun t ht => Nat.le_of_eq (Option.some.inj ht).symm) hn
    | false => rfl
  | stopped => rfl

theorem proceed_stopRequested (h : Heartbeat) (unfinished : Fiber Bool → HeartbeatPhase)
    (tick : Nat → Nat) (r : Fiber Bool × World) :
    (h.proceed unfinished tick r).1.stopRequested = h.stopRequested := by
  unfold proceed
  split
  · unfold await stopNow
    split
    · rfl
    · split <;> rfl
  · rfl

/-- No step takes the wish to stop back. -/
theorem step_stopRequested (h : Heartbeat) (w : World) :
    (h.step w).1.stopRequested = h.stopRequested := by
  unfold step
  split
  · exact proceed_stopRequested ..
  · exact proceed_stopRequested ..
  · exact proceed_stopRequested ..
  · split
    · rfl
    · split
      · exact proceed_stopRequested ..
      · rfl
  · split <;> rfl
  · rfl

/-- **The loop winds down** if each step that is due brings it nearer to its end. -/
inductive Winding : Heartbeat → Prop where
  | stopped {h : Heartbeat} (hs : h.isStopped = true) : Winding h
  | step {h : Heartbeat} (next : ∀ w : World, h.Due w → Winding (h.step w).1) : Winding h

theorem await_winding {h : Heartbeat} (hs : h.stopRequested = true) (tick : Nat) (w : World) :
    (h.await tick w).1.Winding := by
  unfold await
  split
  · refine .step fun v _ => .stopped ?_
    simp [Heartbeat.step, hs, isStopped]
  · exact .stopped rfl

/-- The heartbeat under way is the last one. -/
theorem beat_winding {h : Heartbeat} (hs : h.stopRequested = true)
    (unfinished : Fiber Bool → HeartbeatPhase) (tick : Nat → Nat)
    (hstep : ∀ beat w, ({ h with phase := unfinished beat } : Heartbeat).step w =
      ({ h with phase := unfinished beat } : Heartbeat).proceed unfinished tick (beat.resume w))
    (hdue : ∀ beat w, ({ h with phase := unfinished beat } : Heartbeat).due w = beat.due)
    {beat : Fiber Bool} (hb : beat.Ends) : Winding { h with phase := unfinished beat } := by
  -- induction on the fiber: what is resumed when it is due comes nearer to its end
  induction hb with
  | finished b =>
    refine .step fun w _ => ?_
    rw [hstep]
    exact await_winding hs ..
  | @waiting wake r next _ ih =>
    refine .step fun w hw => ?_
    have hwake : wake ≤ w.clock := hw wake (hdue ..)
    have hnext := ih w hwake
    rw [hstep]
    generalize (Fiber.waiting wake r next).resume w = x at hnext
    obtain ⟨f, v⟩ := x
    cases f with
    | finished b => exact await_winding hs ..
    | waiting wake' r' next' => exact hnext

theorem starting_winding {h : Heartbeat} (hs : h.stopRequested = true) (beat : Fiber Bool) :
    Winding { h with phase := .starting beat } :=
  beat_winding hs .starting (· + h.periodMs) (fun _ _ => rfl) (fun _ _ => rfl) beat.ends

/-- **A loop that is asked to stop** winds down, wherever it is. -/
theorem winding {h : Heartbeat} (hs : h.stopRequested = true) : h.Winding := by
  obtain ⟨client, period, phase, stop⟩ := h
  obtain rfl : stop = true := hs
  cases phase with
  | fresh =>
    refine .step fun w _ => ?_
    simp only [Heartbeat.step]
    generalize (client.heartbeat "startup").start _ = x
    obtain ⟨f, v⟩ := x
    cases f with
    | finished b => exact await_winding rfl ..
    | waiting wake r next => exact starting_winding (h := ⟨client, period, .fresh, true⟩) rfl _
  | starting beat => exact starting_winding (h := ⟨client, period, .fresh, true⟩) rfl beat
  | beating beat tick =>
    exact beat_winding (h := ⟨client, period, .fresh, true⟩) rfl (.beating · tick) (fun _ => tick)
      (fun _ _ => rfl) (fun _ _ => rfl) beat.ends
  | waiting tick => exact .step fun w _ => .stopped rfl
  | broken => exact .step fun w _ => .stopped rfl
  | stopped => exact .stopped rfl

/-- A loop that does not go on now has a time at which it does, whatever happens by then. -/
theorem due_of_not_due {h : Heartbeat} {w : World} (hn : ¬ h.Due w) :
    ∃ t, w.clock < t ∧ ∀ v, h.due v = some t := by
  obtain ⟨client, period, phase, stop⟩ := h
  have hbeat : ∀ beat : Fiber Bool, (¬ ∀ t, beat.due = some t → t ≤ w.clock) →
      ∃ t, w.clock < t ∧ beat.due = some t := by
    intro beat hb
    cases beat with
    | finished b => exact absurd nofun hb
    | waiting wake r next =>
      refine ⟨wake, Nat.lt_of_not_le fun hw => hb fun t ht => ?_, rfl⟩
      obtain rfl := Option.some.inj ht
      exact hw
  cases phase with
  | fresh => exact absurd (fun t ht => Nat.le_of_eq (Option.some.inj ht).symm) hn
  | starting beat =>
    obtain ⟨t, hlt, ht⟩ := hbeat beat hn
    exact ⟨t, hlt, fun _ => ht⟩
  | beating beat tick =>
    obtain ⟨t, hlt, ht⟩ := hbeat beat hn
    exact ⟨t, hlt, fun _ => ht⟩
  | waiting tick =>
    cases stop with
    | true => exact absurd (fun t ht => Nat.le_of_eq (Option.some.inj ht).symm) hn
    | false =>
      refine ⟨tick, Nat.lt_of_not_le fun htick => hn fun t ht => ?_, fun _ => rfl⟩
      obtain rfl := Option.some.inj ht
      exact htick
  | broken =>
    cases stop with
    | true => exact absurd (fun t ht => Nat.le_of_eq (Option.some.inj ht).symm) hn
    | false => exact absurd nofun hn
  | stopped => exact absurd nofun hn

/-- A heartbeat that has begun is still under way. -/
def Underway (h : Heartbeat) : Prop :=
  match h.phase with
  | .starting beat | .beating beat _ => ∃ t, beat.due = some t
  | _ => True

theorem proceed_underway (h : Heartbeat) (unfinished : Fiber Bool → HeartbeatPhase)
    (hu : ∀ beat : Fiber Bool, (∃ t, beat.due = some t) → Underway { h with phase := unfinished beat })
    (tick : Nat → Nat) (r : Fiber Bool × World) : (h.proceed unfinished tick r).1.Underway := by
  obtain ⟨f, w⟩ := r
  cases f with
  | finished b =>
    unfold proceed await
    dsimp only
    split
    · trivial
    · split <;> trivial
  | waiting wake r next => exact hu _ ⟨wake, rfl⟩

theorem step_underway (h : Heartbeat) (w : World) : (h.step w).1.Underway := by
  obtain ⟨client, period, phase, stop⟩ := h
  cases phase with
  | fresh => exact proceed_underway _ .starting (fun _ hb => hb) ..
  | starting beat => exact proceed_underway _ .starting (fun _ hb => hb) ..
  | beating beat tick => exact proceed_underway _ (.beating · tick) (fun _ hb => hb) ..
  | waiting tick =>
    unfold step
    dsimp only
    split
    · trivial
    · split
      · exact proceed_underway _ (.beating · _) (fun _ hb => hb) ..
      · trivial
  | broken =>
    unfold step
    dsimp only
    split <;> trivial
  | stopped => trivial

/-- A loop that is asked to stop has ended, or has a time at which it goes on. -/
theorem Underway.due {h : Heartbeat} (hu : h.Underway) (hs : h.stopRequested = true) (w : World) :
    h.isStopped = true ∨ ∃ t, h.due w = some t := by
  obtain ⟨client, period, phase, stop⟩ := h
  obtain rfl : stop = true := hs
  cases phase with
  | fresh => exact .inr ⟨w.clock, rfl⟩
  | starting beat => exact .inr hu
  | beating beat tick => exact .inr hu
  | waiting tick => exact .inr ⟨w.clock, rfl⟩
  | broken => exact .inr ⟨w.clock, rfl⟩
  | stopped => exact .inl rfl

end Heartbeat

/-! ## The end, backwards -/

namespace Service

/-- **All ends** if the machine goes on for long enough. -/
def Ends (s : Service) (w : World) (now : Nat) : Prop :=
  ∃ time, ∀ target, time ≤ target → (machine.advance now target s w).1.ended = true

/-- One turn of the machine: all has ended, or will end from where it goes on. -/
theorem ends_of_turn {s : Service} {w : World} {now : Nat} {x : Service × World}
    (hx : s.run { w with clock := now } = x)
    (h : x.1.ended = true ∨ ∃ t, x.1.due x.2 = some t ∧ x.1.Ends x.2 (max t (now + 1))) :
    s.Ends w now := by
  rcases h with he | ⟨t, ht, time, hend⟩
  · refine ⟨0, fun target _ => ?_⟩
    have hdue : x.1.due x.2 = none := by rw [due, if_pos he]
    rw [Machine.advance]
    dsimp only [machine]
    rw [hx, hdue]
    exact he
  · refine ⟨max time (max t (now + 1) + 1), fun target htarget => ?_⟩
    rw [Machine.advance]
    dsimp only [machine]
    rw [hx, ht]
    dsimp only
    rw [if_pos (by omega)]
    exact hend target (by omega)

theorem runWatcher_rest (s : Service) (w : World) :
    (s.runWatcher w).1.agent = s.agent ∧ (s.runWatcher w).1.heartbeat = s.heartbeat ∧
      (s.runWatcher w).1.ended = s.ended := by
  unfold runWatcher
  split <;> exact ⟨rfl, rfl, rfl⟩

/-- Once the loop was left only heartbeats and watcher go on, and all has ended when the heartbeats
have. -/
theorem run_of_left {s : Service} (w : World) (hl : s.agent.left = true) (he : s.ended = false) :
    (s.run w).1.agent.left = true ∧
      (s.run w).1.heartbeat = (Heartbeat.runOpt s.heartbeat w).1 ∧
      ((s.run w).1.ended = true ∨ (s.run w).1.heartbeatEnded = false) := by
  obtain ⟨hagent, hbeat, hend⟩ := runWatcher_rest (s.runHeartbeat w).1 (s.runHeartbeat w).2
  unfold run
  rw [he, if_neg Bool.false_ne_true]
  dsimp only
  generalize (s.runHeartbeat w).1.runWatcher (s.runHeartbeat w).2 = y at hagent hbeat hend
  have hleft : y.1.agent.left = true := by rw [hagent]; exact hl
  rw [hleft, if_pos rfl]
  dsimp only
  split
  · exact ⟨hleft, hbeat, .inl rfl⟩
  · rename_i hnot
    refine ⟨hleft, hbeat, .inr ?_⟩
    cases hx : y.1.heartbeatEnded with
    | false => rfl
    | true => exact absurd ⟨hleft, hx⟩ hnot

/-- The heartbeats go on no later than the service. -/
theorem due_le_heartbeat {s : Service} {w : World} {h : Heartbeat} {t : Nat}
    (he : s.ended = false) (hh : s.heartbeat = some h) (ht : h.due w = some t) :
    ∃ u, s.due w = some u ∧ u ≤ t := by
  unfold due
  rw [he, if_neg Bool.false_ne_true, hh, Option.bind_some, ht]
  cases sooner (s.watcher.bind (·.due w)) (s.loopDue w) with
  | none => exact ⟨t, rfl, Nat.le_refl t⟩
  | some u => exact ⟨min t u, rfl, Nat.min_le_left t u⟩

/-- One turn of the machine after the loop was left, where the heartbeats become others. -/
theorem ends_of_beat {s : Service} {w : World} {now : Nat} {h h' : Heartbeat}
    (hh : s.heartbeat = some h) (hl : s.agent.left = true)
    (hrun : (h.run { w with clock := now }).1 = h')
    (hnext : ∀ v, h'.isStopped = true ∨ ∃ t, h'.due v = some t ∧
      ∀ (s' : Service) (w' : World) (next : Nat), s'.heartbeat = some h' → s'.agent.left = true →
        now < next → next ≤ max t (now + 1) → s'.Ends w' next) : s.Ends w now := by
  cases he : s.ended with
  | true => exact ends_of_turn (if_pos he) (.inl he)
  | false =>
    obtain ⟨hleft, hbeat, hend⟩ := run_of_left { w with clock := now } hl he
    have hh' : (s.run { w with clock := now }).1.heartbeat = some h' := by
      rw [hbeat, hh, ← hrun]
      rfl
    refine ends_of_turn rfl ?_
    rcases hend with hend | hgoing
    · exact .inl hend
    · rcases hnext (s.run { w with clock := now }).2 with hstop | ⟨t, ht, hnext⟩
      · rw [heartbeatEnded, hh', Option.all_some, hstop] at hgoing
        cases hgoing
      · cases hended : (s.run { w with clock := now }).1.ended with
        | true => exact .inl rfl
        | false =>
          obtain ⟨u, hu, hut⟩ := due_le_heartbeat hended hh' ht
          exact .inr ⟨u, hu, hnext _ _ _ hh' hleft (by omega) (by omega)⟩

/-- All ends where the loop was left and such heartbeats go on. -/
def EndsWith (h : Heartbeat) : Prop :=
  ∀ (s : Service) (w : World) (now : Nat), s.heartbeat = some h → s.agent.left = true → s.Ends w now

/-- Until heartbeats are due they stay as they are, and time passes. -/
theorem endsWith_of_due {h : Heartbeat} (hdue : ∀ (s : Service) (w : World) (now : Nat),
    s.heartbeat = some h → s.agent.left = true → h.Due { w with clock := now } → s.Ends w now) :
    EndsWith h := by
  intro s w now hh hl
  by_cases hd : h.Due { w with clock := now }
  · exact hdue s w now hh hl hd
  obtain ⟨wake, hlt, hwake⟩ := Heartbeat.due_of_not_due hd
  -- induction on the time until then
  induction hleft : wake - now using Nat.strongRecOn generalizing s w now with
  | ind left ih =>
    have hrun : (h.run { w with clock := now }).1 = h := by
      simp only [Heartbeat.run, Heartbeat.step_of_not_due hd]
    refine ends_of_beat hh hl hrun fun v => .inr ⟨wake, hwake v, ?_⟩
    intro s' w' next hh' hl' hnext hle
    by_cases hd' : h.Due { w' with clock := next }
    · exact hdue s' w' next hh' hl' hd'
    · have hlt' : next < wake := Nat.lt_of_not_le fun hle' => hd' fun t ht => by
        rw [hwake] at ht
        obtain rfl := Option.some.inj ht
        exact hle'
      have hnow : now < wake := hlt
      exact ih (wake - next) (by omega) s' w' next hh' hl' hd' hlt' rfl

theorem endsWith_of_winding {h : Heartbeat} (hw : h.Winding) (hs : h.stopRequested = true) :
    EndsWith h ∧ ∀ v, EndsWith (h.step v).1 := by
  -- the machine takes two steps at once, so the induction speaks of both
  induction hw with
  | @stopped h hstop =>
    have hstep (v : World) : h.step v = (h, v) := Heartbeat.step_stopped hstop v
    have hfirst : EndsWith h := by
      intro s w now hh hl
      refine ends_of_beat hh hl ?_ fun v => .inl hstop
      simp only [Heartbeat.run, hstep]
    refine ⟨hfirst, fun v => ?_⟩
    rw [hstep]
    exact hfirst
  | @step h _ ih =>
    have hsteps (v : World) : (h.step v).1.stopRequested = true := (h.step_stopRequested v).trans hs
    have hfirst : EndsWith h := by
      refine endsWith_of_due fun s w now hh hl hd => ?_
      obtain ⟨-, hsecond⟩ := ih { w with clock := now } hd (hsteps _)
      refine ends_of_beat hh hl rfl fun v => ?_
      have hagain := Heartbeat.step_underway (h.step { w with clock := now }).1
        (h.step { w with clock := now }).2
      rcases hagain.due ((Heartbeat.step_stopRequested ..).trans (hsteps _)) v with hstop | ⟨t, ht⟩
      · exact .inl hstop
      · exact .inr ⟨t, ht, fun s' w' next hh' hl' _ _ => hsecond _ s' w' next hh' hl'⟩
    refine ⟨hfirst, fun v => ?_⟩
    by_cases hd : h.Due v
    · exact (ih v hd (hsteps v)).1
    · rw [Heartbeat.step_of_not_due hd]
      exact hfirst

/-- **Once the loop was left** all ends, if the heartbeats are asked to stop. -/
theorem ends_of_left {s : Service} (hl : s.agent.left = true)
    (hs : ∀ h, s.heartbeat = some h → h.stopRequested = true) (w : World) (now : Nat) :
    s.Ends w now := by
  cases hh : s.heartbeat with
  | some h =>
    obtain ⟨hends, -⟩ := endsWith_of_winding (Heartbeat.winding (hs h hh)) (hs h hh)
    exact hends s w now hh hl
  | none =>
    cases he : s.ended with
    | true => exact ends_of_turn (if_pos he) (.inl he)
    | false =>
      obtain ⟨-, hbeat, hend⟩ := run_of_left { w with clock := now } hl he
      refine ends_of_turn rfl (.inl (hend.resolve_right ?_))
      rw [heartbeatEnded, hbeat, hh]
      intro h
      cases h

/-- A turn of the machine that finds the loop left ends all, or leaves it to the heartbeats. -/
theorem run_left (s : Service) (w : World) (hl : (s.run w).1.agent.left = true) :
    (s.run w).1.ended = true ∨ (s.run w).1.heartbeatEnded = false := by
  unfold run at *
  by_cases he : s.ended = true
  · rw [if_pos he]
    exact .inl he
  · rw [if_neg he] at hl ⊢
    dsimp only at hl ⊢
    generalize s.runHeartbeat w = x at hl ⊢
    generalize x.1.runWatcher x.2 = y at hl ⊢
    generalize (if y.1.agent.left then (y.1, y.2) else y.1.runLoop y.2) = z at hl ⊢
    split
    · exact .inl rfl
    · rename_i hnot
      rw [if_neg hnot] at hl
      have hleft : z.1.agent.left = true := hl
      exact .inr (by simpa [hleft] using hnot)

end Service

/-! ## The turns of the loop -/

namespace Agent

/-- What the agent can still spend on turns of its own. -/
def stock (a : Agent) : Nat :=
  2 * a.queue.length + (if a.running.isSome then 1 else 0) + (if a.orphaned then 0 else 1)

theorem startNext_stock (l : Pipeline) (a : Agent) (w : World) :
    (a.startNext l w).1.stock ≤ a.stock := by
  unfold startNext
  split
  · rename_i task rest hr hq
    unfold stock
    rw [hr, hq, List.length_cons, Option.isSome_some, Option.isSome_none, if_pos rfl,
      if_neg Bool.false_ne_true]
    dsimp only
    omega
  · exact Nat.le_refl _

theorem look_stock (s : AgentSetup) (a : Agent) (w : World) : (a.look s w).1.stock ≤ a.stock := by
  unfold look
  split
  · exact startNext_stock ..
  · exact Nat.le_refl _

theorem requestShutdown_stock (waitMs : Nat) (ticket : Option Nat) (a : Agent) (w : World) :
    (a.requestShutdown waitMs ticket w).1.stock = a.stock := by
  unfold requestShutdown
  cases a.closing <;> rfl

/-- A command brings one file at most. -/
theorem handle_stock (s : AgentSetup) (c : Command) (a : Agent) (w : World) :
    (a.handle s c w).1.stock ≤ a.stock + 2 := by
  have hqueue : ∀ (task : ScanTask) (w : World), (a.enqueue task w).1.stock = a.stock + 2 := by
    intro task w
    unfold enqueue stock
    dsimp only
    rw [List.length_append, List.length_singleton]
    omega
  cases c with
  | detected p => exact Nat.le_of_eq (hqueue ..)
  | scan p => exact Nat.le_of_eq (hqueue ..)
  | flush =>
    dsimp only [handle]
    split
    · exact Nat.le_add_right ..
    · exact Nat.le_trans (startNext_stock ..) (Nat.le_add_right ..)
  | shutdown ticket =>
    dsimp only [handle]
    rw [requestShutdown_stock]
    exact Nat.le_add_right ..

end Agent

namespace Service

/-- What the service can still spend on turns of the loop. -/
def stock (s : Service) (w : World) : Nat :=
  3 * s.inbox.length + s.agent.stock +
    if s.agent.closing.isSome ∧ s.agent.lookedAt + Agent.pollMs ≤ w.clock then 1 else 0

/-- A look sets the timer anew, so it has nothing to say. -/
theorem stock_of_step (s : Service) (signal : Signal) (w : World) :
    stock { s with agent := (s.agent.step s.setup signal w).1 } (s.agent.step s.setup signal w).2 ≤
      3 * s.inbox.length + (s.agent.receive s.setup signal w).1.stock := by
  obtain ⟨hlook, hclock⟩ := Agent.step_clock s.setup signal s.agent w
  have hle : (s.agent.step s.setup signal w).1.stock ≤ _ :=
    Agent.look_stock s.setup (s.agent.receive s.setup signal w).1
      (s.agent.receive s.setup signal w).2
  have hpos : 0 < Agent.pollMs := by decide
  unfold stock
  dsimp only
  rw [hlook, hclock, if_neg (by omega)]
  omega

/-- **Each turn spends something.** -/
theorem stock_lt {s s' : Service} {w : World} {signal : Signal}
    (h : s.nextSignal w = some (signal, s')) :
    stock { s' with agent := (s'.agent.step s'.setup signal w).1 }
      (s'.agent.step s'.setup signal w).2 < s.stock w := by
  obtain ⟨hs, rfl⟩ := nextSignal_hears h
  have hstep := (s.taken signal).stock_of_step signal w
  rw [taken_agent, taken_setup] at hstep ⊢
  refine Nat.lt_of_le_of_lt hstep ?_
  cases signal with
  | finished =>
    have hrun : s.agent.running.isSome = true := by
      have hsome : (s.agent.running.bind TaskRun.result?).isSome = true := hs
      cases hr : s.agent.running with
      | none => rw [hr] at hsome; cases hsome
      | some t => rfl
    show 3 * s.inbox.length + ({ s.agent with running := none } : Agent).stock < s.stock w
    unfold stock Agent.stock
    rw [hrun, if_pos rfl]
    simp only [Option.isSome_none, Bool.false_eq_true, if_false]
    omega
  | command c =>
    have hle := s.agent.handle_stock s.setup c w
    obtain ⟨cs, hi⟩ : ∃ cs, s.inbox = c :: cs := by
      cases hi : s.inbox with
      | nil => have hhead : s.inbox.head? = some c := hs; rw [hi] at hhead; cases hhead
      | cons c' cs =>
        have hhead : s.inbox.head? = some c := hs
        rw [hi] at hhead
        exact ⟨cs, by rw [Option.some.inj hhead]⟩
    show 3 * s.inbox.tail.length + (s.agent.handle s.setup c w).1.stock < s.stock w
    unfold stock
    rw [hi, List.tail_cons, List.length_cons]
    omega
  | orphaned =>
    obtain ⟨-, -, -, ho⟩ := hs
    show 3 * s.inbox.length + (Agent.requestShutdown _ _ { s.agent with orphaned := true } _).1.stock
      < s.stock w
    rw [Agent.requestShutdown_stock]
    unfold stock Agent.stock
    rw [ho]
    simp only [if_true, Bool.false_eq_true, if_false]
    omega
  | tick =>
    show 3 * s.inbox.length + s.agent.stock < s.stock w
    obtain ⟨hc, hle⟩ := hs
    unfold stock
    rw [if_pos ⟨hc, hle⟩]
    exact Nat.lt_succ_self _

/-- With turns enough the loop hears all that has come. -/
theorem turnLoop_hears (n : Nat) {s : Service} {w : World} (h : s.stock w ≤ n) :
    (turnLoop n s w).1.agent.left = true ∨
      (turnLoop n s w).1.nextSignal (turnLoop n s w).2 = none := by
  induction n generalizing s w with
  | zero =>
    refine .inr ?_
    show s.nextSignal w = none
    cases hn : s.nextSignal w with
    | none => rfl
    | some x =>
      obtain ⟨signal, s'⟩ := x
      have hlt := stock_lt hn
      omega
  | succ n ih =>
    rw [turnLoop]
    split
    · rename_i hl
      exact .inl hl
    · split
      · rename_i hn
        exact .inr hn
      · rename_i signal s' hn
        have hlt := stock_lt hn
        exact ih (by omega)

theorem stock_le_turns (s : Service) (w : World) : s.stock w ≤ s.turns := by
  unfold stock Agent.stock turns
  split <;> split <;> split <;> omega

theorem runLoop_hears (s : Service) (w : World) :
    (s.runLoop w).1.agent.left = true ∨ (s.runLoop w).1.nextSignal (s.runLoop w).2 = none := by
  unfold runLoop
  dsimp only
  generalize (s.beginLoop w).1.resumeTask (s.beginLoop w).2 = x
  have hturns := turnLoop_hears x.1.turns (x.1.stock_le_turns x.2)
  split
  · rename_i hl
    exact .inl hl
  · rename_i hl
    exact .inr (hturns.resolve_left hl)

/-- **After a turn of the machine** the loop was left, or has heard all that had come. -/
theorem run_hears (s : Service) (w : World) (he : s.ended = false) :
    (s.run w).1.agent.left = true ∨ (s.run w).1.nextSignal (s.run w).2 = none := by
  unfold run
  rw [he, if_neg Bool.false_ne_true]
  dsimp only
  generalize s.runHeartbeat w = x
  generalize x.1.runWatcher x.2 = y
  have hloop : let z := if y.1.agent.left then (y.1, y.2) else y.1.runLoop y.2
      z.1.agent.left = true ∨ z.1.nextSignal z.2 = none := by
    dsimp only
    split
    · rename_i hl
      exact .inl hl
    · exact runLoop_hears y.1 y.2
  dsimp only at hloop
  generalize (if y.1.agent.left then (y.1, y.2) else y.1.runLoop y.2) = z at hloop ⊢
  split
  · rename_i hf
    exact .inl hf.1
  · exact hloop

end Service

namespace Run

/-- The heartbeats go on, and have been asked to stop if the loop was left. -/
def Parting (r : Run) : Prop :=
  ∀ h, r.service.heartbeat = some h → h.Underway ∧
    (r.service.agent.left = true → h.stopRequested = true)

theorem start_parting (o : Outset) : (start o).Parting := by
  intro h hh
  obtain ⟨b, -, rfl⟩ := Option.map_eq_some_iff.1 hh
  exact ⟨trivial, nofun⟩

theorem act_parting {r : Run} (hw : r.service.Waiting) (hp : r.Parting) (m : Move) :
    (r.act m).Parting := by
  cases m with
  | pass ms files => exact hp
  | send c =>
    obtain ⟨inbox, hs⟩ := r.service.send_getD c
    rw [act, hs]
    exact hp
  | release => exact hp
  | notify c => exact hp
  | begin =>
    cases hb : r.service.begun with
    | true =>
      rw [act, begin, Service.beginLoop, if_pos hb]
      exact hp
    | false =>
      rw [act, begin_eq hw hb]
      exact fun h hh => ⟨(hp h hh).1, fun hl => absurd hl Bool.false_ne_true⟩
  | hear signal =>
    rw [act]
    split
    · rename_i hheard
      intro h hh
      rw [hear_service] at hh ⊢
      dsimp only at hh ⊢
      split at hh
      · obtain ⟨g, hg, rfl⟩ := Option.map_eq_some_iff.1 hh
        rw [(r.service.taken_rest signal).2.2.2] at hg
        exact ⟨(hp g hg).1, fun _ => rfl⟩
      · rename_i hstays
        rw [if_neg hstays]
        rw [(r.service.taken_rest signal).2.2.2] at hh
        exact ⟨(hp h hh).1, fun hl => absurd hl hstays⟩
    · exact hp
  | resume =>
    show Parting ⟨(r.service.resumeTask r.world).1, (r.service.resumeTask r.world).2, r.ledger⟩
    unfold Service.resumeTask
    split
    · exact hp
    · exact hp
  | watch =>
    obtain ⟨hagent, hbeat, -⟩ := Service.runWatcher_rest r.service r.world
    intro h hh
    have hh' : (r.service.runWatcher r.world).1.heartbeat = some h := hh
    have hleft : (r.act .watch).service.agent = r.service.agent := hagent
    rw [hbeat] at hh'
    rw [hleft]
    exact hp h hh'
  | beat =>
    intro h hh
    have hh' : (r.service.beat r.world).1.heartbeat = some h := hh
    show h.Underway ∧ ((r.service.beat r.world).1.agent.left = true → _)
    unfold Service.beat at hh' ⊢
    cases hx : r.service.heartbeat with
    | none =>
      rw [hx] at hh'
      rw [hx] at hh'
      cases hh'
    | some x =>
      rw [hx] at hh'
      obtain rfl := Option.some.inj hh'
      exact ⟨x.step_underway _, fun hl => (x.step_stopRequested _).trans ((hp x hx).2 hl)⟩
  | finish =>
    rw [act]
    split
    · exact hp
    · exact hp

theorem goOn_parting {r : Run} (hw : r.service.Waiting) (hp : r.Parting) (moves : List Move) :
    (r.goOn moves).Parting := by
  have key := goOn_induction (I := fun r => r.service.Waiting ∧ r.Parting)
    (fun r m h => ⟨act_waiting h.1 m, act_parting h.1 h.2 m⟩) ⟨hw, hp⟩ moves
  exact key.2

theorem play_parting (o : Outset) (moves : List Move) : (play o moves).Parting :=
  goOn_parting (start_waiting o) (start_parting o) moves

variable {r q : Run} {c : Closing} {now : Nat}

/-- What holds after one turn of the machine. -/
structure Turned (now : Nat) (q : Run) : Prop where
  waiting : q.service.Waiting
  parting : q.Parting
  clock : q.world.clock = now
  woken : q.service.Woken now
  /-- The loop was left, or has heard all that had come. -/
  heard : q.service.agent.left = true ∨ q.service.nextSignal q.world = none
  /-- If the loop was left and not all has ended, the heartbeats have not. -/
  going : q.service.agent.left = true → q.service.ended = true ∨ q.service.heartbeatEnded = false

theorem exists_turn (hw : r.service.Waiting) (hp : r.Parting) :
    ∃ moves, r.service.run r.world = ((r.goOn moves).service, (r.goOn moves).world) ∧
      Turned r.world.clock (r.goOn moves) := by
  obtain ⟨moves, -, hs, hworld, hclock, hwoken⟩ := run_moves r hw
  have hrun : r.service.run r.world = ((r.goOn moves).service, (r.goOn moves).world) := by
    rw [hs, hworld]
  have hq := goOn_waiting hw moves
  have hleft := Service.run_left r.service r.world
  have hhears := Service.run_hears r.service r.world
  rw [hrun] at hwoken hleft hhears
  refine ⟨moves, hrun, hq, goOn_parting hw hp moves, hclock, hwoken, ?_, hleft⟩
  cases he : r.service.ended with
  | false => exact hhears he
  | true =>
    have hsame : (r.goOn moves).service = r.service := by rw [hs, Service.run, if_pos he]
    rw [hsame]
    exact .inl (hw.atEnd he).1

/-- With a shutdown under way the machine goes on until all has ended. -/
theorem Turned.due (h : Turned now q) (hc : q.service.agent.closing ≠ none)
    (he : q.service.ended = false) : ∃ t, q.service.due q.world = some t := by
  cases hl : q.service.agent.left with
  | false =>
    have hlater : now < q.service.agent.lookedAt + Agent.pollMs := h.woken hc hl
    have hclock := h.clock
    obtain ⟨t, ht, -⟩ := Service.due_le h.waiting (w := q.world) hc hl (by omega)
    exact ⟨t, ht⟩
  | true =>
    -- the heartbeats are on their way to their end
    have hgoing := (h.going hl).resolve_left (by rw [he]; exact Bool.false_ne_true)
    cases hh : q.service.heartbeat with
    | none =>
      rw [Service.heartbeatEnded, hh] at hgoing
      cases hgoing
    | some b =>
      obtain ⟨hu, hstop⟩ := h.parting b hh
      rcases hu.due (hstop hl) q.world with hs | ⟨t, ht⟩
      · rw [Service.heartbeatEnded, hh, Option.all_some, hs] at hgoing
        cases hgoing
      · obtain ⟨u, hu, -⟩ := Service.due_le_heartbeat he hh ht
        exact ⟨u, hu⟩

/-- The end after one turn of the machine is the end. -/
theorem Turned.ends (h : Turned now q) {s : Service} {w : World}
    (hrun : s.run { w with clock := now } = (q.service, q.world))
    (hc : q.service.ended = false → q.service.agent.closing ≠ none)
    (hends : q.service.ended = false → ∀ next, now < next → q.service.Ends q.world next) :
    s.Ends w now := by
  refine Service.ends_of_turn hrun ?_
  cases he : q.service.ended with
  | true => exact .inl rfl
  | false =>
    obtain ⟨t, ht⟩ := h.due (hc he) he
    exact .inr ⟨t, ht, hends he _ (by omega)⟩

/-- **A shutdown ends all**, wherever the agent is when it is asked for. -/
theorem ends_of_closing (hw : r.service.Waiting) (hp : r.Parting)
    (hc : r.service.agent.closing = some c) (now : Nat) : r.service.Ends r.world now := by
  cases hl : r.service.agent.left with
  | true => exact Service.ends_of_left hl (fun h hh => (hp h hh).2 hl) _ _
  | false =>
    -- induction on the time that is left until a poll after the deadline
    induction hleft : c.deadline + Agent.pollMs - now using Nat.strongRecOn
      generalizing r c now with
    | ind left ih =>
      obtain ⟨moves, hrun, hq⟩ :=
        exists_turn (r := ⟨r.service, { r.world with clock := now }, r.ledger⟩) hw hp
      obtain ⟨c', hc', hd⟩ := (goOn_preserves (fun _ _ _ hs h => hs.drains h)
        (r := ⟨r.service, { r.world with clock := now }, r.ledger⟩) hw (Drains.refl hc) moves).deadline
      generalize goOn ⟨r.service, { r.world with clock := now }, r.ledger⟩ moves = q at *
      have hsome : q.service.agent.closing ≠ none := by
        rw [hc']
        exact Option.some_ne_none c'
      refine hq.ends hrun (fun _ => hsome) fun _ next hnext => ?_
      cases hql : q.service.agent.left with
      | true => exact Service.ends_of_left hql (fun h hh => (hq.parting h hh).2 hql) _ _
      | false =>
        have hlook := lookedAt_lt hq.waiting hc' hql
        have hlater := hq.woken hsome hql
        dsimp only at hnext hlater
        exact ih _ (by omega) hq.waiting hq.parting hc' next hql rfl

/-- Only a shutdown leaves the loop. -/
theorem play_left_closing (o : Outset) (moves : List Move)
    (hl : (play o moves).service.agent.left = true) :
    (play o moves).service.agent.closing ≠ none := by
  refine play_preserves
    (I := fun r => r.service.agent.left = true → r.service.agent.closing ≠ none)
    (fun files r r' hs h => ?_) nofun moves hl
  cases hs with
  | pass ms files' => exact h
  | alongside ha hw =>
    rw [ha.agent]
    exact h
  | greet hb => exact h
  | ask task line hb hl => exact h
  | close hc hw => exact fun _ => Option.some_ne_none _
  | settle ht hr => exact h
  | start hl hc hr hq hf => exact h
  | look hl =>
    intro hmay
    obtain ⟨c, hc, -⟩ := mayLeave_iff.1 hmay
    dsimp only
    rw [hc]
    exact Option.some_ne_none c
  | leave hl => exact h
  | resume ht hf => exact h
  | finish hb hl hr he => exact h

/-- **A run ends** if a turn of the machine from there asks for a shutdown. -/
theorem play_ends (o : Outset) (moves : List Move)
    (h : ∀ more, Turned (play o moves).world.clock (play o (moves ++ more)) →
      (play o (moves ++ more)).service.ended = false →
      (play o (moves ++ more)).service.agent.closing ≠ none) :
    (play o moves).service.Ends (play o moves).world (play o moves).world.clock := by
  obtain ⟨more, hrun, hq⟩ := exists_turn (play_waiting o moves) (play_parting o moves)
  rw [← play_append] at hrun hq
  refine hq.ends hrun (h more hq) fun he next _ => ?_
  obtain ⟨c, hc⟩ := Option.ne_none_iff_exists'.1 (h more hq he)
  exact ends_of_closing hq.waiting hq.parting hc next

end Run

end DownloadTriage
