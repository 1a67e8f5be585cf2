import DownloadTriage.Proofs.Step

/-!
# The order of tasks

Files asked for are queued at the back and begun at the front, one at a time. So the ledger always
falls into the tasks that are over, the one in the slot, and the queue. A task is given up only when
the loop is left at a deadline.

* `Run.play_exits`: when the loop is left, and when a task is given up.
* `Run.play_orderly`: how ledger, slot and queue fit together.
-/

namespace DownloadTriage

namespace Run

/-- The task under way, if there is one. -/
def inSlot (r : Run) : List ScanTask := (r.service.agent.running.map (·.task)).toList

/-- The last look was not before the deadline. -/
def Due (r : Run) : Prop :=
  ∃ c, r.service.agent.closing = some c ∧ c.deadline ≤ r.service.agent.lookedAt

variable {files : FileTree} {r r' : Run}

theorem inSlot_none (h : r.service.agent.running = none) : r.inSlot = [] := by
  rw [inSlot, h]
  rfl

theorem inSlot_some {t : TaskRun} (h : r.service.agent.running = some t) : r.inSlot = [t.task] := by
  rw [inSlot, h]
  rfl

/-! ## Leaving -/

/-- How the loop is left. -/
structure Exits (r : Run) : Prop where
  /-- A task is given up when the loop is left at a deadline. -/
  givenUp : r.ledger.givenUp ≠ none →
    r.service.agent.left = true ∧ r.service.agent.running = none ∧ r.Due
  /-- Before a deadline the loop is left when there is nothing to do, and only then. -/
  left : r.service.agent.left = true →
    (r.service.agent.queue = [] ∧ r.service.agent.running = none ∧ r.ledger.givenUp = none) ∨ r.Due
  /-- Nothing is under way when all has ended. -/
  ended : r.service.ended = true → r.service.agent.left = true ∧ r.service.agent.running = none

theorem start_exits (o : Outset) : (start o).Exits where
  givenUp h := absurd rfl h
  left h := nomatch h
  ended h := nomatch h

namespace Exits

theorem kept (h : r.Exits) (hl : r.service.agent.left = false) : r.ledger.givenUp = none := by
  cases hg : r.ledger.givenUp with
  | none => rfl
  | some task =>
    rw [(h.givenUp (by rw [hg]; nofun)).1] at hl
    cases hl

theorem kept_running (h : r.Exits) {t : TaskRun} (ht : r.service.agent.running = some t) :
    r.ledger.givenUp = none := by
  cases hg : r.ledger.givenUp with
  | none => rfl
  | some task =>
    rw [(h.givenUp (by rw [hg]; nofun)).2.1] at ht
    cases ht

theorem due_running (h : r.Exits) {t : TaskRun} (ht : r.service.agent.running = some t)
    (hl : r.service.agent.left = true) : r.Due := by
  rcases h.left hl with ⟨_, hn, _⟩ | hd
  · rw [ht] at hn
    cases hn
  · exact hd

theorem going (h : r.Exits) (hl : r.service.agent.left = false) : r.service.ended = false := by
  cases he : r.service.ended with
  | false => rfl
  | true =>
    rw [(h.ended he).1] at hl
    cases hl

theorem going_running (h : r.Exits) {t : TaskRun} (ht : r.service.agent.running = some t) :
    r.service.ended = false := by
  cases he : r.service.ended with
  | false => rfl
  | true =>
    rw [(h.ended he).2] at ht
    cases ht

end Exits

/-- While the loop is not left, there is nothing to show. -/
theorem exits_of_going (hl : r.service.agent.left = false) (hg : r.ledger.givenUp = none)
    (he : r.service.ended = false) : r.Exits where
  givenUp h := absurd hg h
  left h := by
    rw [hl] at h
    cases h
  ended h := by
    rw [he] at h
    cases h

theorem mayLeave_iff {a : Agent} {now : Nat} : a.mayLeave now = true ↔
    ∃ c, a.closing = some c ∧ ((a.queue = [] ∧ a.running = none) ∨ c.deadline ≤ now) := by
  unfold Agent.mayLeave
  cases a.closing with
  | none => simp
  | some c => simp [Agent.isIdle]

/-- **Every step** keeps this. -/
theorem Step.exits (hs : Step files r r') (h : r.Exits) : r'.Exits := by
  cases hs with
  | pass ms files' => exact ⟨h.givenUp, h.left, h.ended⟩
  | alongside ha hw =>
    refine ⟨?_, ?_, ?_⟩
    · rw [Due, ha.agent]; exact h.givenUp
    · rw [Due, ha.agent]; exact h.left
    · rw [ha.agent, ha.ended]; exact h.ended
  | greet hb => exact ⟨h.givenUp, h.left, h.ended⟩
  | ask task line hb hl => exact exits_of_going hl (h.kept hl) (h.going hl)
  | @close c orphaned w hc hw =>
    have hdue : r.Due → c.deadline ≤ r.service.agent.lookedAt := by
      rintro ⟨c', hc', hd⟩
      rw [hc c' hc']
      exact hd
    refine ⟨fun hg => ?_, fun hl => ?_, h.ended⟩
    · obtain ⟨hl, hr, hd⟩ := h.givenUp hg
      exact ⟨hl, hr, c, rfl, hdue hd⟩
    · rcases h.left hl with hi | hd
      · exact .inl hi
      · exact .inr ⟨c, rfl, hdue hd⟩
  | @settle t result ht hr =>
    refine ⟨fun hg => absurd (h.kept_running ht) hg, fun hl => .inr (h.due_running ht hl),
      fun he => ⟨(h.ended he).1, rfl⟩⟩
  | @start task rest hl hc hr hq hf => exact exits_of_going hl (h.kept hl) (h.going hl)
  | look hl =>
    refine ⟨fun hg => absurd (h.kept hl) hg, fun hm => ?_, fun he => ?_⟩
    · obtain ⟨c, hc, hi | hd⟩ := mayLeave_iff.1 hm
      · exact .inl ⟨hi.1, hi.2, h.kept hl⟩
      · exact .inr ⟨c, hc, hd⟩
    · rw [h.going hl] at he
      cases he
  | leave hl =>
    cases hr : r.service.agent.running with
    | none =>
      refine ⟨fun hg => ⟨hl, rfl, (h.givenUp hg).2.2⟩, fun _ => ?_, fun _ => ⟨hl, rfl⟩⟩
      rcases h.left hl with hi | hd
      · exact .inl ⟨hi.1, rfl, hi.2.2⟩
      · exact .inr hd
    | some t =>
      -- with a task in the slot only a deadline leaves the loop
      have hd : r.Due := h.due_running hr hl
      exact ⟨fun _ => ⟨hl, rfl, hd⟩, fun _ => .inr hd, fun _ => ⟨hl, rfl⟩⟩
  | @resume t ht hf =>
    refine ⟨fun hg => absurd (h.kept_running ht) hg, fun hl => .inr (h.due_running ht hl),
      fun he => ?_⟩
    rw [h.going_running ht] at he
    cases he
  | finish hb hl hr he => exact ⟨h.givenUp, h.left, fun _ => ⟨hl, hr⟩⟩

theorem play_exits (o : Outset) (moves : List Move) : (play o moves).Exits :=
  play_preserves (fun _ _ _ => Step.exits) (start_exits o) moves

/-! ## Order -/

/-- Ledger, slot and queue fit together. -/
structure Orderly (r : Run) : Prop where
  /-- Nothing is asked for before the loop begins. -/
  fresh : r.service.begun = false → r.ledger.asked = []
  asked : r.ledger.asked = r.ledger.begun ++ r.service.agent.queue
  begun : r.ledger.begun = r.ledger.finished.map (·.1) ++ r.inSlot ++ r.ledger.givenUp.toList

theorem start_orderly (o : Outset) : (start o).Orderly := ⟨fun _ => rfl, rfl, rfl⟩

theorem Orderly.began (h : r.Orderly) (ha : r.ledger.asked ≠ []) : r.service.begun = true := by
  cases hb : r.service.begun with
  | true => rfl
  | false => exact absurd (h.fresh hb) ha

theorem Orderly.begun_running (h : r.Orderly) (hx : r.Exits) {t : TaskRun}
    (ht : r.service.agent.running = some t) :
    r.ledger.begun = r.ledger.finished.map (·.1) ++ [t.task] := by
  rw [h.begun, inSlot_some ht, hx.kept_running ht, Option.toList_none, List.append_nil]

/-- **Every step** keeps the order. -/
theorem Step.orderly (hs : Step files r r') (hx : r.Exits) (h : r.Orderly) : r'.Orderly := by
  cases hs with
  | pass ms files' => exact ⟨h.fresh, h.asked, h.begun⟩
  | alongside ha hw =>
    have hb := h.begun
    rw [inSlot, ← ha.agent] at hb
    refine ⟨?_, ?_, hb⟩
    · rw [ha.begun]; exact h.fresh
    · rw [ha.agent]; exact h.asked
  | greet hb => exact ⟨(nomatch ·), h.asked, h.begun⟩
  | ask task line hb hl =>
    refine ⟨fun hf => ?_, ?_, h.begun⟩
    · rw [hb] at hf
      cases hf
    · rw [h.asked, List.append_assoc]
  | close hc hw => exact ⟨h.fresh, h.asked, h.begun⟩
  | @settle t result ht hr =>
    refine ⟨h.fresh, h.asked, ?_⟩
    rw [h.begun_running hx ht, inSlot_none rfl, hx.kept_running ht, List.map_append]
    simp
  | @start task rest hl hc hr hq hf =>
    refine ⟨h.fresh, ?_, ?_⟩
    · rw [h.asked, hq, List.append_assoc]
      rfl
    · have hg := hx.kept hl
      rw [h.begun, inSlot_none hr, inSlot_some rfl, TaskRun.start_task, hg]
      simp
  | look hl => exact ⟨h.fresh, h.asked, h.begun⟩
  | leave hl =>
    refine ⟨?_, ?_, ?_⟩
    · rw [Ledger.slot_asked]; exact h.fresh
    · rw [Ledger.slot_asked, Ledger.slot_none_begun]; exact h.asked
    · cases hr : r.service.agent.running with
      | none =>
        have hb := h.begun
        rw [inSlot_none hr] at hb
        exact hb
      | some t =>
        -- what was in the slot is over or given up, and stays where it is in the order
        have hb := h.begun_running hx hr
        rw [inSlot_none rfl]
        dsimp only [Ledger.slot]
        cases ht : t.result? with
        | some result => simp [hb, hx.kept_running hr]
        | none => simp [hb]
  | @resume t ht hf =>
    refine ⟨h.fresh, h.asked, ?_⟩
    rw [h.begun, inSlot_some ht, inSlot_some rfl, TaskRun.resume_task]
  | finish hb hl hr he => exact ⟨h.fresh, h.asked, h.begun⟩

/-- **Along every run** tasks are in order. -/
theorem play_orderly (o : Outset) (moves : List Move) : (play o moves).Orderly := by
  have key := play_preserves (I := fun r => r.Exits ∧ r.Orderly)
    (fun _ _ _ hs h => ⟨hs.exits h.1, hs.orderly h.1 h.2⟩)
    ⟨start_exits o, start_orderly o⟩ moves
  exact key.2

end Run

end DownloadTriage
