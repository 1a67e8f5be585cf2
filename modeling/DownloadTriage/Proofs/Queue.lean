import DownloadTriage.Proofs.Story

/-!
# First come, first served

At every time the files asked for are those whose tasks are over, the one under way, and those that
are queued. Between two signals nothing that could begin is queued, so to ask the agent to begin the
next scan has no effect.

* `Run.play_queue`: what the queue is at every time.
-/

namespace DownloadTriage

namespace Agent

/-- Nothing is queued while a scan could begin. -/
def Idle (a : Agent) : Prop := a.closing = none → a.running = none → a.queue = []

theorem startNext_eq (l : Pipeline) {a : Agent} (w : World) (h : a.running = none → a.queue = []) :
    a.startNext l w = (a, w) := by
  unfold startNext
  split
  · rename_i hr hq
    rw [h hr] at hq
    cases hq
  · rfl

/-- With nothing to begin, asking to begin the next scan does nothing. -/
theorem flush_eq {a : Agent} (h : a.Idle) (s : AgentSetup) (w : World) :
    a.handle s .flush w = (a, w) := by
  unfold handle
  cases hc : a.closing with
  | some c => rfl
  | none => exact startNext_eq _ w (h hc)

theorem look_eq {a : Agent} (h : a.Idle) (s : AgentSetup) (w : World) :
    a.look s w = ({ a with lookedAt := w.clock, left := a.mayLeave w.clock }, w) := by
  unfold look
  split
  · rename_i hn
    rw [startNext_eq s.pipeline w (h (Option.isNone_iff_eq_none.1 hn))]
  · rfl

end Agent

namespace Run

variable {files : FileTree} {r r' : Run} {o : Outset}

/-- What was written down stays. -/
def Extends (r r' : Run) : Prop :=
  r.ledger.asked <+: r'.ledger.asked ∧ r.ledger.begun <+: r'.ledger.begun ∧
    r.ledger.finished <+: r'.ledger.finished

theorem Extends.refl (r : Run) : r.Extends r :=
  ⟨List.prefix_rfl, List.prefix_rfl, List.prefix_rfl⟩

theorem slot_finished (k : Ledger) (before : Option TaskRun) :
    k.finished <+: (k.slot before none).finished := by
  unfold Ledger.slot
  split
  · contradiction
  · split
    · exact List.prefix_append ..
    · exact List.prefix_rfl
  · exact List.prefix_rfl

theorem Step.extends {q : Run} (hs : Step files r r') (h : q.Extends r) : q.Extends r' := by
  cases hs with
  | ask task line hb hl => exact ⟨h.1.trans (List.prefix_append ..), h.2⟩
  | settle ht hr => exact ⟨h.1, h.2.1, h.2.2.trans (List.prefix_append ..)⟩
  | start hl hc hr hq hf => exact ⟨h.1, h.2.1.trans (List.prefix_append ..), h.2.2⟩
  | leave hl =>
    refine ⟨?_, ?_, h.2.2.trans (slot_finished ..)⟩
    · rw [Ledger.slot_asked]; exact h.1
    · rw [Ledger.slot_none_begun]; exact h.2.1
  | _ => exact h

theorem turn_flush (q : Run) (h : q.service.agent.Idle) :
    q.turn (q.service.agent.receive q.service.setup (.command .flush) q.world) = q := by
  have hf : q.service.agent.receive q.service.setup (.command .flush) q.world =
      (q.service.agent, q.world) := Agent.flush_eq h _ _
  rw [hf, turn_same]
  rfl

theorem turn_look (q : Run) (h : q.service.agent.Idle) :
    q.turn (q.service.agent.look q.service.setup q.world) =
      ⟨{ q.service with
          agent := { q.service.agent with
            lookedAt := q.world.clock
            left := q.service.agent.mayLeave q.world.clock } }, q.world, q.ledger⟩ := by
  rw [Agent.look_eq h, turn_same]
  rfl

/-- **To ask for the next scan** begins none, and leaves the queue as it is. -/
theorem hear_flush (h : r.service.agent.Idle) :
    (r.hear (.command .flush)).ledger.asked = r.ledger.asked ∧
      (r.hear (.command .flush)).ledger.begun = r.ledger.begun ∧
      (r.hear (.command .flush)).service.agent.queue = r.service.agent.queue := by
  have hreceive := turn_flush ⟨r.service.taken (.command .flush), r.world, r.ledger⟩ h
  have hlook := turn_look ⟨r.service.taken (.command .flush), r.world, r.ledger⟩ h
  -- the flush does nothing, and the look finds nothing to begin
  have he : r.hear (.command .flush) = leave
      ⟨{ r.service.taken (.command .flush) with
          agent := { r.service.agent with
            lookedAt := r.world.clock
            left := r.service.agent.mayLeave r.world.clock } }, r.world, r.ledger⟩ :=
    (congrArg (fun p : Run => (p.turn (p.service.agent.look p.service.setup p.world)).leave)
      hreceive).trans (congrArg leave hlook)
  rw [he]
  unfold leave
  split
  · exact ⟨Ledger.slot_asked .., Ledger.slot_none_begun .., rfl⟩
  · exact ⟨rfl, rfl, rfl⟩

/-- **The queue at one time.** -/
structure InLine (o : Outset) (r : Run) : Prop where
  /-- Every file that is asked for is announced at once. -/
  announced : announced (r.told o) = r.ledger.asked
  /-- None is lost, none comes twice, and none is overtaken. -/
  order : r.service.agent.left = false →
    r.ledger.asked = r.ledger.finished.map (·.1) ++ r.inSlot ++ r.service.agent.queue
  /-- When the loop is left at a deadline, the one under way is given up. -/
  dropped : r.ledger.asked = r.ledger.finished.map (·.1) ++ r.inSlot ++ r.ledger.givenUp.toList ++
    r.service.agent.queue
  begun : r.ledger.asked = r.ledger.begun ++ r.service.agent.queue
  single : r.inSlot.length ≤ 1
  /-- What could begin has begun. -/
  waiting : r.service.agent.Idle
  /-- To ask for the next scan changes nothing. -/
  flush : ∀ w, r.service.agent.handle r.service.setup .flush w = (r.service.agent, w)
  flushed : (r.hear (.command .flush)).ledger.asked = r.ledger.asked ∧
    (r.hear (.command .flush)).ledger.begun = r.ledger.begun ∧
    (r.hear (.command .flush)).service.agent.queue = r.service.agent.queue

/-- **At every time of every run** the files asked for stand in line, and nothing that was written
down is ever changed. -/
theorem play_queue (o : Outset) (moves : List Move) :
    InLine o (play o moves) ∧ ∀ more, (play o moves).Extends (play o (moves ++ more)) := by
  have hw := play_waiting o moves
  have hx := play_exits o moves
  have ho := play_orderly o moves
  obtain ⟨blocks, last, es, ht⟩ := play_told o moves
  constructor
  · refine ⟨?_, fun hl => ?_, ?_, ho.asked, ?_, hw.idle, fun w => Agent.flush_eq hw.idle _ w,
      hear_flush hw.idle⟩
    · rw [told_of_tells ht.world]
      exact ht.tale.order
    · rw [ho.asked, ho.begun, hx.kept hl, Option.toList_none, List.append_nil]
    · rw [ho.asked, ho.begun]
    · unfold inSlot
      cases (play o moves).service.agent.running <;> simp
  · intro more
    rw [play_append]
    exact goOn_preserves (fun _ _ _ hs h => hs.extends h) hw (.refl _) more

end Run

end DownloadTriage
