import Mathlib.Data.List.Induction
import DownloadTriage.Proofs.Told

/-!
# The story of a run

All that a run tells: a greeting if a directory is watched, then files that are asked for and, in
their order, one block for each that was begun, and at the very end that all is over.

* `Run.play_story`: the story of every run.
-/

namespace DownloadTriage

namespace Run

/-- What listeners were told since the outset. -/
def told (o : Outset) (r : Run) : List Event :=
  eventsOf (r.world.deeds.drop o.world.deeds.length)

theorem told_of_tells {o : Outset} {r : Run} {es : List Event} (h : o.world.Tells es r.world) :
    r.told o = es := by
  obtain ⟨ds, hds, he⟩ := h.deeds
  rw [told, hds, List.drop_left, he]

/-- The files as they stood before one of the moves, or after the last. -/
def Saw (o : Outset) (moves : List Move) (t : FileTree) : Prop :=
  ∃ k ≤ moves.length, t = (play o (moves.take k)).world.files

variable {o : Outset} {moves : List Move} {r : Run}

theorem Saw.concat {t : FileTree} (h : Saw o moves t) (m : Move) : Saw o (moves ++ [m]) t := by
  obtain ⟨k, hk, ht⟩ := h
  refine ⟨k, by rw [List.length_append]; omega, ?_⟩
  rw [List.take_append_of_le_length hk]
  exact ht

theorem saw_last (o : Outset) (moves : List Move) : Saw o moves (play o moves).world.files :=
  ⟨moves.length, Nat.le_refl _, by rw [List.take_length]⟩

/-- **Along every run** the tale goes on. -/
theorem play_told (o : Outset) (moves : List Move) :
    ∃ blocks last es, Told o (Saw o moves) (play o moves) blocks last es := by
  -- induction on the last move, which may bring new files
  induction moves using List.reverseRecOn with
  | nil => exact ⟨[], [], [], start_told o _⟩
  | append_singleton moves m ih =>
    obtain ⟨blocks, last, es, h⟩ := ih
    rw [play_concat]
    have hsaw : Saw o (moves ++ [m]) (play o moves).world.files := (saw_last o moves).concat m
    have key := (act_steps (play_waiting o moves) m).preserves
      (I := fun r => r.Exits ∧ r.Orderly ∧
        ∃ blocks last es, Told o (Saw o (moves ++ [m])) r blocks last es)
      (fun r r' hs hr => by
        obtain ⟨hx, ho, blocks, last, es, ht⟩ := hr
        exact ⟨hs.exits hx, hs.orderly hx ho, hs.told hsaw ho hx ht⟩)
      ⟨play_exits o moves, play_orderly o moves, blocks, last, es, h.mono fun t ht => ht.concat m⟩
    exact key.2.2

/-! ## The end -/

/-- **When all has ended** no move does anything more. -/
theorem act_ended (h : r.service.Waiting) (he : r.service.ended = true) (m : Move) :
    (r.act m).service.ended = true ∧ (r.act m).world.trace = r.world.trace := by
  obtain ⟨hl, hh, hw⟩ := h.atEnd he
  cases m with
  | pass ms files => exact ⟨he, rfl⟩
  | send c =>
    obtain ⟨inbox, hs⟩ := r.service.send_getD c
    refine ⟨?_, rfl⟩
    show ((r.service.send c).getD r.service).ended = true
    rw [hs]
    exact he
  | release => exact ⟨he, rfl⟩
  | notify c => exact ⟨he, rfl⟩
  | begin =>
    rw [act, begin, Service.beginLoop, if_pos (h.begun hl)]
    exact ⟨he, rfl⟩
  | hear signal =>
    rw [act, if_neg fun hs => by rw [hl] at hs; cases hs.2.1]
    exact ⟨he, rfl⟩
  | resume =>
    rw [act, Service.resumeTask, h.dropped hl]
    exact ⟨he, rfl⟩
  | watch =>
    rw [act, Service.runWatcher, hw]
    exact ⟨he, rfl⟩
  | beat =>
    rw [act, Service.beat]
    cases hx : r.service.heartbeat with
    | none => exact ⟨he, rfl⟩
    | some x =>
      have hs : x.isStopped = true := by simpa [Service.heartbeatEnded, hx] using hh
      dsimp only
      rw [x.step_stopped hs]
      exact ⟨he, rfl⟩
  | finish =>
    rw [act, if_neg fun hs => by rw [he] at hs; cases hs.2.2]
    exact ⟨he, rfl⟩

theorem goOn_ended (h : r.service.Waiting) (he : r.service.ended = true) (more : List Move) :
    (r.goOn more).world.trace = r.world.trace := by
  have key := goOn_induction
    (I := fun q => q.service.Waiting ∧ q.service.ended = true ∧ q.world.trace = r.world.trace)
    (fun q m hq => by
      obtain ⟨hw, he, ht⟩ := hq
      obtain ⟨he', ht'⟩ := act_ended hw he m
      exact ⟨act_waiting hw m, he', ht'.trans ht⟩)
    ⟨h, he, rfl⟩ more
  exact key.2.2

/-- **The last deed** is to tell that all is over. -/
theorem play_last (o : Outset) (moves : List Move) (he : (play o moves).service.ended = true) :
    ∃ ds, (play o moves).world.deeds = ds ++ [.emitted .shutdown] := by
  induction moves using List.reverseRecOn with
  | nil => cases he
  | append_singleton moves m ih =>
    rw [play_concat] at he ⊢
    -- it had ended before, or ends with this move
    cases hb : (play o moves).service.ended with
    | true =>
      rw [World.deeds, (act_ended (play_waiting o moves) hb m).2]
      exact ih hb
    | false =>
      by_cases hm : m = .finish
      · subst hm
        rw [act] at he ⊢
        split at he
        · rename_i hf
          rw [if_pos hf]
          exact ⟨_, World.deeds_mark _ _⟩
        · rw [hb] at he
          cases he
      · rw [act_going (play_waiting o moves) hb hm] at he
        cases he

/-! ## The whole story -/

/-- **The story of a run**, with one part for each task that was begun. -/
structure Story (o : Outset) (saw : FileTree → Prop) (r : Run) (parts : List (List Event)) :
    Prop where
  /-- First the greeting, last the end. -/
  shape : Shape (greeting o) r.service.begun r.service.ended (r.told o)
  began : r.service.ended = true → r.service.begun = true
  /-- All that was told of scans are the parts, one after the other. -/
  flat : scanned (r.told o) = parts.flatten
  number : parts.length = r.ledger.begun.length
  /-- Tasks begin in the order in which they were announced, and are over in this order. -/
  order : r.ledger.begun <+: announced (r.told o)
  begun : r.ledger.begun = r.ledger.finished.map (·.1) ++ r.inSlot ++ r.ledger.givenUp.toList
  /-- The part of a task that is over is a whole block. -/
  whole : List.Forall₂ (fun e part => Block saw e.1 e.2 part) r.ledger.finished
    (parts.take r.ledger.finished.length)
  /-- At most one task is not over: it is under way, or was given up at the deadline. Its part is
  the beginning of a block. -/
  single : parts.length ≤ r.ledger.finished.length + 1
  beginning : ∀ part ∈ parts.drop r.ledger.finished.length, ∃ task result block,
    IsBlock task result block ∧ part <+: block ∧
      (r.inSlot = [task] ∨ (r.ledger.givenUp = some task ∧ r.Due))
  dropped : r.service.ended = true → r.inSlot = []
  /-- What was told of scans at any time is of tasks that had been announced by then. -/
  after : ∀ before rest, r.told o = before ++ rest →
    scanned before <+: (parts.take (announced before).length).flatten

theorem Told.story {seen : FileTree → Prop} {blocks last : List (List Event)} {es : List Event}
    (h : r.Told o seen blocks last es) (hw : r.service.Waiting) (hx : r.Exits) (ho : r.Orderly) :
    Story o seen r (blocks ++ last) := by
  have htold : r.told o = es := told_of_tells h.world
  have hlen := h.whole.length_eq
  have hslot := h.slot
  refine ⟨?_, fun he => hw.begun (hx.ended he).1, ?_, h.length ho, ?_, ?_, ?_, ?_, ?_,
    fun he => inSlot_none (hx.ended he).2, ?_⟩
  · rw [htold]
    exact h.shape
  · rw [htold]
    exact h.tale.flat
  · rw [htold, h.tale.order, ho.asked]
    exact List.prefix_append ..
  · exact ho.begun
  · rw [hlen, List.take_left]
    exact h.whole
  · rw [List.length_append, hlen]
    have hone : last.length ≤ 1 := by
      generalize r.service.agent.running = running, r.ledger.givenUp = givenUp at hslot
      cases hslot <;> simp
    omega
  · rw [hlen, List.drop_left]
    intro part hpart
    cases hr : r.service.agent.running with
    | some t =>
      rw [hr, hx.kept_running hr] at hslot
      cases hslot with
      | underway hf hs =>
        obtain ⟨result, block, hb, hp⟩ := hf.block_prefix
        rw [List.mem_singleton.1 hpart]
        exact ⟨t.task, result, block, hb, hp, .inl (inSlot_some hr)⟩
    | none =>
      cases hg : r.ledger.givenUp with
      | none =>
        rw [hr, hg] at hslot
        cases hslot
        cases hpart
      | some task =>
        rw [hr, hg] at hslot
        cases hslot with
        | givenUp hb hp =>
          rw [List.mem_singleton.1 hpart]
          exact ⟨task, _, _, hb, hp, .inr ⟨rfl, (hx.givenUp (by rw [hg]; nofun)).2.2⟩⟩
  · rw [htold]
    exact h.tale.after

/-- **Every run tells its story**, and when all has ended, that is the last deed of all. -/
theorem play_story (o : Outset) (moves : List Move) :
    (∃ parts, Story o (Saw o moves) (play o moves) parts) ∧
      ((play o moves).service.ended = true →
        (∃ ds, (play o moves).world.deeds = ds ++ [.emitted .shutdown]) ∧
          ∀ more, (play o (moves ++ more)).world.trace = (play o moves).world.trace) := by
  constructor
  · obtain ⟨blocks, last, es, h⟩ := play_told o moves
    exact ⟨_, h.story (play_waiting o moves) (play_exits o moves) (play_orderly o moves)⟩
  · intro he
    refine ⟨play_last o moves he, fun more => ?_⟩
    rw [play_append]
    exact goOn_ended (play_waiting o moves) he more

end Run

end DownloadTriage
