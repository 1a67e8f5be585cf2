import DownloadTriage.Proofs.Run
import DownloadTriage.Proofs.Task

/-!
# What goes on beside the loop

The watcher only logs, and the heartbeats use nothing but the collector. So they pass no milestone:
listeners are told nothing, no model is asked and no report is handed over.

* `Watcher.run_calm`: one turn of the watcher.
* `Heartbeat.step_calm`: one step of the heartbeats.
-/

namespace DownloadTriage

/-- The world went on at one time, and no milestone was passed. -/
structure World.Calm (w w' : World) : Prop where
  around : w'.around = w.around
  clock : w'.clock = w.clock
  deeds : ∃ ds, w'.deeds = w.deeds ++ ds ∧ milestones ds = []

namespace World.Calm

variable {w w' w'' : World}

theorem refl (w : World) : Calm w w := ⟨rfl, rfl, [], by simp, rfl⟩

theorem trans (h : Calm w w') (h' : Calm w' w'') : Calm w w'' := by
  obtain ⟨ds, hds, hm⟩ := h.deeds
  obtain ⟨es, hes, hn⟩ := h'.deeds
  refine ⟨by rw [h'.around, h.around], by rw [h'.clock, h.clock], ds ++ es, ?_, ?_⟩
  · rw [hes, hds, List.append_assoc]
  · rw [milestones_append, hm, hn, List.nil_append]

theorem say (w : World) (lines : List LogLine) : Calm w (w.say lines) := by
  refine ⟨rfl, rfl, lines.map .logged, deeds_say w lines, ?_⟩
  simp [milestones, Deed.isMilestone]

theorem ofTaken {ts : List Turn} (h : Taken w ts w')
    (hts : ∀ t ∈ ts, t.request.collects = true) : Calm w w' :=
  ⟨h.around.1, h.clock, deedsOf ts, h.deeds,
    milestones_deedsOf fun t ht => not_isMilestone_of_collects (hts t ht)⟩

end World.Calm

/-! ## The watcher -/

namespace Watcher

theorem arrive_dir (x : Watcher) (p : Path) (now : Nat) : (x.arrive p now).dir = x.dir := by
  unfold arrive
  split <;> rfl

theorem goOn_dir (x : Watcher) (j : SettleJob) (now : Nat) : (x.goOn j now).dir = x.dir := by
  unfold goOn
  split
  · rfl
  · split <;> rfl

theorem take_calm (x : Watcher) (w : World) :
    (x.take w).1.dir = x.dir ∧ w.Calm (x.take w).2 := by
  unfold take
  split
  · exact ⟨rfl, .refl w⟩
  · dsimp only
    split
    · exact ⟨rfl, .say w _⟩
    · split
      · exact ⟨rfl, .refl w⟩
      · exact ⟨arrive_dir .., .refl w⟩

theorem takeAll_calm (n : Nat) (x : Watcher) (w : World) :
    (takeAll n x w).1.dir = x.dir ∧ w.Calm (takeAll n x w).2 := by
  induction n generalizing x w with
  | zero => exact ⟨rfl, .refl w⟩
  | succ n ih =>
    obtain ⟨hd, hc⟩ := x.take_calm w
    obtain ⟨hd', hc'⟩ := ih (x.take w).1 (x.take w).2
    exact ⟨hd'.trans hd, hc.trans hc'⟩

theorem lookAround_dir (x : Watcher) (w : World) : (x.lookAround w).dir = x.dir := by
  -- the jobs that settle leave the directory as it is
  have key : ∀ (js : List SettleJob) (now : Nat) (y : Watcher),
      (js.foldl (fun y j => y.goOn j now) y).dir = y.dir := by
    intro js now
    induction js with
    | nil => exact fun y => rfl
    | cons j js ih => exact fun y => (ih _).trans (y.goOn_dir j now)
  exact key _ _ _

/-- **One turn of the watcher.** -/
theorem run_calm (x : Watcher) (w : World) :
    (x.run w).1.dir = x.dir ∧ w.Calm (x.run w).2.2 := by
  obtain ⟨hd, hc⟩ := takeAll_calm x.incoming.length x w
  refine ⟨?_, hc⟩
  exact (lookAround_dir _ _).trans ((lookAround_dir _ _).trans hd)

end Watcher

/-! ## The heartbeats -/

namespace Heartbeat

/-- A heartbeat under way uses nothing but the collector. -/
def Quiet (h : Heartbeat) : Prop :=
  match h.phase with
  | .starting beat | .beating beat _ => beat.Only (·.collects)
  | _ => True

theorem quiet_starting (h : Heartbeat) (beat : Fiber Bool) (hb : beat.Only (·.collects)) :
    Quiet { h with phase := .starting beat } := hb

theorem quiet_beating (h : Heartbeat) (tick : Nat) (beat : Fiber Bool)
    (hb : beat.Only (·.collects)) : Quiet { h with phase := .beating beat tick } := hb

theorem await_calm (h : Heartbeat) (tick : Nat) (w : World) :
    (h.await tick w).1.Quiet ∧ w.Calm (h.await tick w).2 := by
  unfold await
  split
  · exact ⟨trivial, .refl w⟩
  · split
    · exact ⟨trivial, .say w _⟩
    · exact ⟨trivial, .refl w⟩

theorem proceed_calm (h : Heartbeat) {unfinished : Fiber Bool → HeartbeatPhase} {w : World}
    (hu : ∀ beat, beat.Only (·.collects) → Quiet { h with phase := unfinished beat })
    (tick : Nat → Nat) {r : Fiber Bool × World}
    (hr : ∃ ts, Taken w ts r.2 ∧ (∀ t ∈ ts, t.request.collects = true) ∧ r.1.Only (·.collects)) :
    (h.proceed unfinished tick r).1.Quiet ∧ w.Calm (h.proceed unfinished tick r).2 := by
  obtain ⟨f, v⟩ := r
  obtain ⟨ts, ht, hts, hf⟩ := hr
  have hc : w.Calm v := .ofTaken ht hts
  cases f with
  | finished b =>
    obtain ⟨hq, hc'⟩ := h.await_calm (tick v.clock) v
    exact ⟨hq, hc.trans hc'⟩
  | waiting wake r next => exact ⟨hu _ hf, hc⟩

/-- **One step of the heartbeats.** -/
theorem step_calm (h : Heartbeat) (hq : h.Quiet) (w : World) :
    (h.step w).1.Quiet ∧ w.Calm (h.step w).2 := by
  obtain ⟨client, period, phase, stop⟩ := h
  cases phase with
  | fresh =>
    obtain ⟨hq', hc⟩ := proceed_calm ⟨client, period, .fresh, stop⟩ (quiet_starting _)
      (· + period) ((client.heartbeat_only "startup").start (w.say _))
    exact ⟨hq', (World.Calm.say w _).trans hc⟩
  | starting beat => exact proceed_calm _ (quiet_starting _) _ (Fiber.Only.resume hq w)
  | beating beat tick => exact proceed_calm _ (quiet_beating _ tick) _ (Fiber.Only.resume hq w)
  | waiting tick =>
    unfold step
    dsimp only
    split
    · exact ⟨trivial, .say w _⟩
    · split
      · exact proceed_calm _ (quiet_beating _ _) _ ((client.heartbeat_only "interval").start w)
      · exact ⟨trivial, .refl w⟩
  | broken =>
    unfold step
    dsimp only
    split
    · exact ⟨trivial, .say w _⟩
    · exact ⟨trivial, .refl w⟩
  | stopped => exact ⟨trivial, .refl w⟩

/-- A loop that has ended does nothing. -/
theorem step_stopped {h : Heartbeat} (hs : h.isStopped = true) (w : World) :
    h.step w = (h, w) := by
  obtain ⟨client, period, phase, stop⟩ := h
  cases phase with
  | stopped => rfl
  | _ => cases hs

end Heartbeat

end DownloadTriage
