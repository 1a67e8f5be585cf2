import Mathlib.Data.List.Induction
import DownloadTriage.Program.Rehearsal
import DownloadTriage.Proofs.Queue

/-!
# After a shutdown was asked for

From then on no task begins. What is asked for is still announced and queued, the task under way
goes on, and the loop is left at the first look that finds nothing to do or comes at the deadline.

* `Run.requested_iff`: a shutdown is under way if a signal asked for one, and only then.
* `Run.play_closing`: what holds from the shutdown on, whatever happens.
-/

namespace DownloadTriage

/-- The task went on for a while, from one world to another. -/
def TaskRun.Resumed (l : Pipeline) : TaskRun → TaskRun → Prop :=
  Relation.ReflTransGen fun t t' => ∃ w, t' = (t.resume l w).1

theorem TaskRun.Resumed.task {l : Pipeline} {t t' : TaskRun} (h : Resumed l t t') :
    t'.task = t.task := by
  induction h with
  | refl => rfl
  | tail h hstep ih =>
    obtain ⟨w, rfl⟩ := hstep
    rw [resume_task, ih]

/-- The signal asks for a shutdown: someone does, or nobody is left who could. -/
def Signal.closes : Signal → Bool
  | .command (.shutdown _) => true
  | .orphaned => true
  | _ => false

namespace Agent

theorem receive_closing (s : AgentSetup) (signal : Signal) (a : Agent) (w : World) :
    (a.receive s signal w).1.closing ≠ none ↔ a.closing ≠ none ∨ signal.closes = true := by
  cases signal with
  | finished => simp [receive, Signal.closes]
  | command c =>
    cases c with
    | detected p => simp [receive, handle, enqueue, Signal.closes]
    | scan p => simp [receive, handle, enqueue, Signal.closes]
    | flush =>
      have hf : (a.handle s .flush w).1.closing = a.closing := by
        dsimp only [handle]
        split
        · rfl
        · exact startNext_closing ..
      simp [receive, hf, Signal.closes]
    | shutdown ticket =>
      exact iff_of_true (requestShutdown_left ..).2 (.inr rfl)
  | orphaned => exact iff_of_true (requestShutdown_left ..).2 (.inr rfl)
  | tick => simp [receive, Signal.closes]

/-- Once a shutdown was asked for, a look begins nothing. -/
theorem look_running (s : AgentSetup) {a : Agent} (w : World) (hc : a.closing ≠ none) :
    (a.look s w).1.running = a.running := by
  unfold look
  split
  · rename_i hn
    exact absurd (Option.isNone_iff_eq_none.1 hn) hc
  · rfl

/-- A signal after which a shutdown was asked for begins nothing. -/
theorem receive_running (s : AgentSetup) {signal : Signal} {a : Agent} {w : World}
    (hc : (a.receive s signal w).1.closing ≠ none) (hf : signal ≠ .finished) :
    (a.receive s signal w).1.running = a.running := by
  have request : ∀ (a : Agent) waitMs ticket (w : World),
      (a.requestShutdown waitMs ticket w).1.running = a.running := by
    intro a waitMs ticket w
    unfold requestShutdown
    cases a.closing <;> rfl
  cases signal with
  | finished => exact absurd rfl hf
  | command c =>
    cases c with
    | detected p => rfl
    | scan p => rfl
    | flush =>
      dsimp only [receive, handle] at *
      split
      · rfl
      · rename_i hn
        rw [if_neg hn, startNext_closing] at hc
        -- a flush begins the next scan only if no shutdown was asked for
        exact absurd (Option.isSome_iff_ne_none.2 hc) hn
    | shutdown ticket => exact request ..
  | orphaned => exact request ..
  | tick => rfl

end Agent

namespace Run

variable {files : FileTree} {r q q' : Run} {c : Closing}

theorem leave_closing (r : Run) : r.leave.service.agent.closing = r.service.agent.closing := by
  unfold leave
  split <;> rfl

theorem leave_begun (r : Run) : r.leave.ledger.begun = r.ledger.begun := by
  unfold leave
  split
  · exact Ledger.slot_none_begun ..
  · rfl

theorem turn_begun (r : Run) {x : Agent × World}
    (h : x.1.running = r.service.agent.running ∨ x.1.running = none) :
    (r.turn x).ledger.begun = r.ledger.begun := by
  unfold turn
  dsimp only
  rcases h with h | h
  · rw [h, Ledger.slot_self]
  · rw [h, Ledger.slot_none_begun]

theorem hear_closing (r : Run) (signal : Signal) :
    (r.hear signal).service.agent.closing ≠ none ↔
      r.service.agent.closing ≠ none ∨ signal.closes = true := by
  unfold hear
  dsimp only
  rw [leave_closing]
  refine (iff_of_eq (congrArg (· ≠ none) (Agent.look_closing ..))).trans ?_
  exact (Agent.receive_closing ..).trans (by rw [Service.taken_agent])

/-- A signal after which a shutdown was asked for begins nothing. -/
theorem hear_begun {signal : Signal} (hc : (r.hear signal).service.agent.closing ≠ none) :
    (r.hear signal).ledger.begun = r.ledger.begun := by
  unfold hear at *
  dsimp only at *
  rw [leave_closing] at hc
  have hreceive := (Agent.look_closing ..).symm.trans_ne hc
  rw [leave_begun, turn_begun _ (.inl (Agent.look_running _ _ hreceive)), turn_begun]
  · cases signal with
    | command c => cases c <;> rfl
    | _ => rfl
  · by_cases hf : signal = .finished
    · subst hf
      exact .inr rfl
    · exact .inl (Agent.receive_running _ hreceive hf)

/-- The last look is not ahead of the clock. -/
def Punctual (r : Run) : Prop := r.service.agent.lookedAt ≤ r.world.clock

theorem Step.punctual (hs : Step files q q') (h : q.Punctual) : q'.Punctual := by
  unfold Punctual at *
  cases hs with
  | pass ms files' => exact Nat.le_trans h (Nat.le_add_right ..)
  | alongside ha hw =>
    rw [ha.agent, hw.clock]
    exact h
  | greet hb =>
    rw [greet_clock]
    exact h
  | ask task line hb hl => exact h
  | close hc hw =>
    rw [hw.clock]
    exact h
  | settle ht hr => exact h
  | @start task rest hl hc hr hq hf =>
    obtain ⟨is, ps, ss, ht, -⟩ := TaskRun.start_follows q.service.setup.pipeline task q.world
    rw [ht.clock]
    exact h
  | look hl => exact Nat.le_refl _
  | leave hl => exact h
  | resume ht hf =>
    rw [TaskRun.resume_clock]
    exact h
  | finish hb hl hr he =>
    rw [finish_clock]
    exact h

/-- What becomes of the slot: nothing that was not under way comes into it. -/
inductive Fate (r q : Run) : Prop where
  | nothing (hr : r.service.agent.running = none) (hq : q.service.agent.running = none)
      (ho : q.ledger.finished = r.ledger.finished) (hg : q.ledger.givenUp = r.ledger.givenUp)
  | underway {t t' : TaskRun} (hr : r.service.agent.running = some t)
      (hq : q.service.agent.running = some t') (ht : t.Resumed r.service.setup.pipeline t')
      (ho : q.ledger.finished = r.ledger.finished) (hg : q.ledger.givenUp = r.ledger.givenUp)
  | settled {t t' : TaskRun} {result : Option Report} (hr : r.service.agent.running = some t)
      (hq : q.service.agent.running = none) (ht : t.Resumed r.service.setup.pipeline t')
      (hres : t'.result? = some result)
      (ho : q.ledger.finished = r.ledger.finished ++ [(t.task, result)])
      (hg : q.ledger.givenUp = r.ledger.givenUp)
  | dropped {t : TaskRun} (hr : r.service.agent.running = some t)
      (hq : q.service.agent.running = none) (ho : q.ledger.finished = r.ledger.finished)
      (hg : q.ledger.givenUp = some t.task)

/-- What holds after a shutdown was asked for, of all states from then on. -/
structure Drains (c : Closing) (r q : Run) : Prop where
  setup : q.service.setup = r.service.setup
  deadline : ∃ c', q.service.agent.closing = some c' ∧ c'.deadline = c.deadline
  /-- No task begins. -/
  begun : q.ledger.begun = r.ledger.begun
  /-- What is asked for is queued in order. -/
  queued : ∃ new, q.ledger.asked = r.ledger.asked ++ new ∧
    q.service.agent.queue = r.service.agent.queue ++ new
  fate : Fate r q

theorem Drains.refl (hc : r.service.agent.closing = some c) : Drains c r r where
  setup := rfl
  deadline := ⟨c, hc, rfl⟩
  begun := rfl
  queued := ⟨[], by simp⟩
  fate := by
    cases hr : r.service.agent.running with
    | none => exact .nothing hr hr rfl rfl
    | some t => exact .underway hr hr .refl rfl rfl

/-- A step that leaves slot and ledger as they are. -/
theorem Fate.kept (h : Fate r q) (ha : q'.service.agent.running = q.service.agent.running)
    (ho : q'.ledger.finished = q.ledger.finished) (hg : q'.ledger.givenUp = q.ledger.givenUp) :
    Fate r q' := by
  cases h with
  | nothing hr hq ho' hg' => exact .nothing hr (ha.trans hq) (ho.trans ho') (hg.trans hg')
  | underway hr hq ht ho' hg' => exact .underway hr (ha.trans hq) ht (ho.trans ho') (hg.trans hg')
  | settled hr hq ht hres ho' hg' =>
    exact .settled hr (ha.trans hq) ht hres (ho.trans ho') (hg.trans hg')
  | dropped hr hq ho' hg' => exact .dropped hr (ha.trans hq) (ho.trans ho') (hg.trans hg')

/-- The task under way is over. -/
theorem Fate.ends (h : Fate r q) {t : TaskRun} {result : Option Report}
    (ht : q.service.agent.running = some t) (hres : t.result? = some result)
    (ha : q'.service.agent.running = none)
    (ho : q'.ledger.finished = q.ledger.finished ++ [(t.task, result)])
    (hg : q'.ledger.givenUp = q.ledger.givenUp) : Fate r q' := by
  cases h with
  | nothing hr hq => rw [hq] at ht; cases ht
  | settled hr hq => rw [hq] at ht; cases ht
  | dropped hr hq => rw [hq] at ht; cases ht
  | underway hr hq htr ho' hg' =>
    rw [hq] at ht
    obtain rfl := Option.some.inj ht
    rw [ho', htr.task] at ho
    exact .settled hr ha htr hres ho (hg.trans hg')

/-- The task under way is given up. -/
theorem Fate.drops (h : Fate r q) {t : TaskRun} (ht : q.service.agent.running = some t)
    (ha : q'.service.agent.running = none) (ho : q'.ledger.finished = q.ledger.finished)
    (hg : q'.ledger.givenUp = some t.task) : Fate r q' := by
  cases h with
  | nothing hr hq => rw [hq] at ht; cases ht
  | settled hr hq => rw [hq] at ht; cases ht
  | dropped hr hq => rw [hq] at ht; cases ht
  | underway hr hq htr ho' hg' =>
    rw [hq] at ht
    obtain rfl := Option.some.inj ht
    rw [htr.task] at hg
    exact .dropped hr ha (ho.trans ho') hg

/-- The task under way goes on. -/
theorem Fate.resumes (h : Fate r q) {t : TaskRun} {w : World}
    (ht : q.service.agent.running = some t)
    (ha : q'.service.agent.running = some (t.resume r.service.setup.pipeline w).1)
    (ho : q'.ledger.finished = q.ledger.finished) (hg : q'.ledger.givenUp = q.ledger.givenUp) :
    Fate r q' := by
  cases h with
  | nothing hr hq => rw [hq] at ht; cases ht
  | settled hr hq => rw [hq] at ht; cases ht
  | dropped hr hq => rw [hq] at ht; cases ht
  | underway hr hq htr ho' hg' =>
    rw [hq] at ht
    obtain rfl := Option.some.inj ht
    exact .underway hr ha (htr.tail ⟨w, rfl⟩) (ho.trans ho') (hg.trans hg')

/-- **Every step** keeps this. -/
theorem Step.drains (hs : Step files q q') (h : Drains c r q) : Drains c r q' := by
  obtain ⟨hset, ⟨c', hc', hd⟩, hbegun, ⟨new, hnew⟩, hfate⟩ := h
  cases hs with
  | pass ms files' => exact ⟨hset, ⟨c', hc', hd⟩, hbegun, ⟨new, hnew⟩, hfate.kept rfl rfl rfl⟩
  | alongside ha hw =>
    refine ⟨ha.setup.trans hset, ?_, hbegun, ?_, hfate.kept (by rw [ha.agent]) rfl rfl⟩
    · rw [ha.agent]
      exact ⟨c', hc', hd⟩
    · rw [ha.agent]
      exact ⟨new, hnew⟩
  | greet hb => exact ⟨hset, ⟨c', hc', hd⟩, hbegun, ⟨new, hnew⟩, hfate.kept rfl rfl rfl⟩
  | ask task line hb hl =>
    refine ⟨hset, ⟨c', hc', hd⟩, hbegun, ⟨new ++ [task], ?_, ?_⟩, hfate.kept rfl rfl rfl⟩
    · rw [hnew.1, List.append_assoc]
    · rw [hnew.2, List.append_assoc]
  | @close c'' orphaned w hc hw =>
    exact ⟨hset, ⟨c'', rfl, (hc c' hc').trans hd⟩, hbegun, ⟨new, hnew⟩, hfate.kept rfl rfl rfl⟩
  | settle ht hr =>
    exact ⟨hset, ⟨c', hc', hd⟩, hbegun, ⟨new, hnew⟩, hfate.ends ht hr rfl rfl rfl⟩
  | start hl hc hr hq hf =>
    rw [hc] at hc'
    cases hc'
  | look hl => exact ⟨hset, ⟨c', hc', hd⟩, hbegun, ⟨new, hnew⟩, hfate.kept rfl rfl rfl⟩
  | leave hl =>
    refine ⟨hset, ⟨c', hc', hd⟩, ?_, ⟨new, ?_, hnew.2⟩, ?_⟩
    · rw [Ledger.slot_none_begun, hbegun]
    · rw [Ledger.slot_asked, hnew.1]
    · cases ht : q.service.agent.running with
      | none => exact hfate.kept ht.symm rfl rfl
      | some t =>
        dsimp only [Ledger.slot]
        cases hres : t.result? with
        | some result => exact hfate.ends ht hres rfl rfl rfl
        | none => exact hfate.drops ht rfl rfl rfl
  | @resume t ht hf =>
    have hrun : some (t.resume q.service.setup.pipeline q.world).1 =
        some (t.resume r.service.setup.pipeline q.world).1 := by rw [hset]
    exact ⟨hset, ⟨c', hc', hd⟩, hbegun, ⟨new, hnew⟩, hfate.resumes ht hrun rfl rfl⟩
  | finish hb hl hr he => exact ⟨hset, ⟨c', hc', hd⟩, hbegun, ⟨new, hnew⟩, hfate.kept rfl rfl rfl⟩

/-- **From a shutdown on.** -/
structure Closes (o : Outset) (c : Closing) (r q : Run) : Prop extends Drains c r q where
  /-- What is asked for is still announced. -/
  announced : announced (q.told o) = q.ledger.asked
  /-- What is queued was asked for and not begun. -/
  unbegun : q.ledger.asked = q.ledger.begun ++ q.service.agent.queue
  /-- The task under way is dropped only if the loop is left at the deadline. -/
  patience : q.ledger.givenUp ≠ none →
    q.service.agent.left = true ∧ c.deadline ≤ q.service.agent.lookedAt
  /-- The loop is left at the first look that finds nothing to do or comes at the deadline. -/
  leaves : q.service.agent.left = true ↔
    (q.service.agent.queue = [] ∧ q.service.agent.running = none ∧ q.ledger.givenUp = none) ∨
      c.deadline ≤ q.service.agent.lookedAt
  /-- Each signal ends with a look at the clock. -/
  looks : ∀ signal, (q.hear signal).service.agent.lookedAt = q.world.clock
  past : q.service.agent.lookedAt ≤ q.world.clock
  /-- With a file in the queue the loop is not left before the deadline. -/
  late : r.service.agent.queue ≠ [] → q.service.agent.left = true →
    c.deadline ≤ q.service.agent.lookedAt

theorem Drains.due (h : Drains c r q) (hd : q.Due) : c.deadline ≤ q.service.agent.lookedAt := by
  obtain ⟨c', hc', he⟩ := h.deadline
  obtain ⟨c'', hc'', hd⟩ := hd
  rw [hc'] at hc''
  obtain rfl := Option.some.inj hc''
  rw [← he]
  exact hd

theorem Drains.leaves (h : Drains c r q) (hw : q.service.Waiting) (hx : q.Exits) :
    q.service.agent.left = true ↔
      (q.service.agent.queue = [] ∧ q.service.agent.running = none ∧ q.ledger.givenUp = none) ∨
        c.deadline ≤ q.service.agent.lookedAt := by
  constructor
  · intro hl
    exact (hx.left hl).imp_right h.due
  · intro hor
    cases hl : q.service.agent.left with
    | true => rfl
    | false =>
      obtain ⟨c', hc', he⟩ := h.deadline
      have hstays := hw.stays hl
      have hmay : q.service.agent.mayLeave q.service.agent.lookedAt = true := by
        refine mayLeave_iff.2 ⟨c', hc', ?_⟩
        rcases hor with hi | hd
        · exact .inl ⟨hi.1, hi.2.1⟩
        · exact .inr (he ▸ hd)
      rw [hstays] at hmay
      cases hmay

theorem closes_of_closing {o : Outset} {moves : List Move}
    (hc : (play o moves).service.agent.closing = some c) (more : List Move) :
    Closes o c (play o moves) (play o (moves ++ more)) := by
  have hd : Drains c (play o moves) (play o (moves ++ more)) := by
    rw [play_append]
    exact goOn_preserves (fun _ _ _ hs h => hs.drains h) (play_waiting o moves) (.refl hc) more
  have hw := play_waiting o (moves ++ more)
  have hx := play_exits o (moves ++ more)
  have ho := play_orderly o (moves ++ more)
  have hp : (play o (moves ++ more)).Punctual :=
    play_preserves (fun _ _ _ hs h => hs.punctual h) (Nat.zero_le _) _
  obtain ⟨blocks, last, es, ht⟩ := play_told o (moves ++ more)
  refine { hd with
    announced := ?_
    unbegun := ho.asked
    patience := fun hg => ⟨(hx.givenUp hg).1, hd.due (hx.givenUp hg).2.2⟩
    leaves := hd.leaves hw hx
    looks := hear_lookedAt _
    past := hp
    late := fun hq hl => ?_ }
  · rw [told_of_tells ht.world]
    exact ht.tale.order
  · rcases (hd.leaves hw hx).1 hl with ⟨hn, -⟩ | hdue
    -- what is queued stays queued, so only the deadline is left
    · obtain ⟨new, -, hnew⟩ := hd.queued
      rw [hn] at hnew
      exact absurd (List.append_eq_nil_iff.1 hnew.symm).1 hq
    · exact hdue

/-- The move that asks for a shutdown, and every later one, begins no task. -/
theorem act_begun (hw : r.service.Waiting) {m : Move}
    (hc : (r.act m).service.agent.closing ≠ none) : (r.act m).ledger.begun = r.ledger.begun := by
  -- the signal that asks for the shutdown is itself such a move
  by_cases hm : ∃ signal, m = .hear signal
  · obtain ⟨signal, rfl⟩ := hm
    rw [act] at *
    split at hc
    · rename_i hs
      rw [if_pos hs]
      exact hear_begun hc
    · rename_i hs
      rw [if_neg hs]
  · have hm' : ∀ signal, m ≠ .hear signal := fun signal h => hm ⟨signal, h⟩
    rw [act_closing hw hm'] at hc
    obtain ⟨c, hc⟩ := Option.ne_none_iff_exists'.1 hc
    exact ((act_steps hw m).preserves (fun _ _ hs h => hs.drains h) (Drains.refl hc)).begun

/-- A shutdown was asked for: among the moves, the loop heard a signal that asks for one. -/
def Requested (o : Outset) (moves : List Move) : Prop :=
  ∃ before signal after, moves = before ++ .hear signal :: after ∧ signal.closes = true ∧
    (play o before).service.begun = true ∧ (play o before).service.agent.left = false ∧
    (play o before).service.Hears (play o before).world signal

theorem requested_concat {o : Outset} {moves : List Move} {m : Move} :
    Requested o (moves ++ [m]) ↔ Requested o moves ∨
      ∃ signal, m = .hear signal ∧ signal.closes = true ∧ (play o moves).service.begun = true ∧
        (play o moves).service.agent.left = false ∧
        (play o moves).service.Hears (play o moves).world signal := by
  constructor
  · rintro ⟨before, signal, after, he, hs⟩
    -- the signal is the last move or one before it
    rcases List.eq_nil_or_concat after with rfl | ⟨after, m', rfl⟩
    · obtain ⟨rfl, hm⟩ := List.append_inj' he rfl
      exact .inr ⟨signal, List.head_eq_of_cons_eq hm, hs⟩
    · rw [List.concat_eq_append, ← List.cons_append, ← List.append_assoc] at he
      obtain ⟨rfl, -⟩ := List.append_inj' he rfl
      exact .inl ⟨before, signal, after, rfl, hs⟩
  · rintro (⟨before, signal, after, rfl, hs⟩ | ⟨signal, rfl, hs⟩)
    · exact ⟨before, signal, after ++ [m], by simp, hs⟩
    · exact ⟨moves, signal, [], rfl, hs⟩

/-- **A shutdown is under way** if one was asked for, and only then. -/
theorem requested_iff (o : Outset) (moves : List Move) :
    Requested o moves ↔ (play o moves).service.agent.closing ≠ none := by
  induction moves using List.reverseRecOn with
  | nil =>
    refine iff_of_false ?_ fun h => h rfl
    rintro ⟨before, signal, after, he, -⟩
    simp at he
  | append_singleton moves m ih =>
    rw [requested_concat, ih, play_concat]
    by_cases hm : ∃ signal, m = .hear signal
    · obtain ⟨signal, rfl⟩ := hm
      rw [act]
      split
      · rename_i hs
        rw [hear_closing]
        refine or_congr_right ⟨?_, fun hc => ⟨signal, rfl, hc, hs⟩⟩
        rintro ⟨_, ⟨⟩, hc, -⟩
        exact hc
      · rename_i hs
        refine or_iff_left ?_
        rintro ⟨_, ⟨⟩, -, hs'⟩
        exact hs hs'
    · rw [act_closing (play_waiting o moves) fun signal h => hm ⟨signal, h⟩]
      refine or_iff_left ?_
      rintro ⟨signal, h, -⟩
      exact hm ⟨signal, h⟩

/-- **Once a shutdown was asked for** no task begins, whatever happens; what is asked for is still
announced and queued; and the loop is left at the first look that finds nothing to do or comes at
the deadline. -/
theorem play_closing (o : Outset) (moves : List Move) (m : Move)
    (h : Requested o (moves ++ [m])) :
    ∃ c, (play o (moves ++ [m])).service.agent.closing = some c ∧
      (play o (moves ++ [m])).ledger.begun = (play o moves).ledger.begun ∧
      ∀ more, Closes o c (play o (moves ++ [m])) (play o (moves ++ [m] ++ more)) := by
  have hn := (requested_iff o _).1 h
  obtain ⟨c, hc⟩ := Option.ne_none_iff_exists'.1 hn
  refine ⟨c, hc, ?_, fun more => closes_of_closing hc more⟩
  rw [play_concat] at hn ⊢
  exact act_begun (play_waiting o moves) hn

/-- An agent without a watcher in a world without files, where every request takes a while. -/
def slowOutset : Outset where
  setup := ⟨⟨⟨⟨"", "", ""⟩, ⟨none, [], ""⟩⟩, .samples, ⟨"", false⟩, 0⟩, 100⟩
  heartbeat := none
  watcher := none
  world := .begin
    { Rehearsal.surroundings (fun _ => (.printed "", 0)) (fun _ => (.printed "", 0))
        (Decoder.scripted []) with latency := fun _ => 5 } ⟨[], []⟩

/-- One file is under way and another is queued when the shutdown is asked for. -/
def busyMoves : List Move :=
  [.begin, .send (.detected ⟨[1]⟩), .hear (.command (.detected ⟨[1]⟩)), .send (.detected ⟨[2]⟩),
    .hear (.command (.detected ⟨[2]⟩)), .pass 10 ⟨[], []⟩, .send (.shutdown 7)]

/-- The loop hears of the shutdown. -/
def shutdownMove : Move := .hear (.command (.shutdown 7))

theorem requested_of_busyMoves : Requested slowOutset (busyMoves ++ [shutdownMove]) :=
  ⟨busyMoves, .command (.shutdown 7), [], rfl, rfl, rfl, rfl, rfl⟩

/-- From there on the loop waits for the first file until the deadline, and never begins the
second. -/
theorem play_closing_busy :
    Requested slowOutset (busyMoves ++ [shutdownMove]) ∧
    ∃ c, (play slowOutset (busyMoves ++ [shutdownMove])).service.agent.closing = some c ∧
      (play slowOutset (busyMoves ++ [shutdownMove])).ledger.begun =
        (play slowOutset busyMoves).ledger.begun ∧
      ∀ more, Closes slowOutset c (play slowOutset (busyMoves ++ [shutdownMove]))
        (play slowOutset (busyMoves ++ [shutdownMove] ++ more)) :=
  ⟨requested_of_busyMoves,
    play_closing slowOutset busyMoves shutdownMove requested_of_busyMoves⟩

end Run

end DownloadTriage
