import DownloadTriage.Proofs.Channel

/-!
# Letting the agent go

When the last one outside has let the agent go, its channel is at an end, unless a watcher can still
put files into it. The loop hears all that came in, in order, and then of the end of the channel. It
hears of that once, as nothing comes in any more, and that alone asks for the shutdown.

A watcher keeps the channel open, and only the end of the agent closes the watcher. So an agent with a
watcher that was let go hears of no end, and goes on.

* `Run.act_deserted`: nothing comes into a channel that nobody can reach.
* `Run.play_severance`: the account of the end of the channel along every run.
* `Run.play_attended`: an agent with a watcher goes on.
* `Run.play_released`: what becomes of an agent that was let go.
-/

namespace DownloadTriage

/-- The channel is empty, and nobody is left who could put something into it. -/
structure Service.Deserted (s : Service) : Prop where
  handle : s.handle = false
  watcher : s.watcher = none
  inbox : s.inbox = []

namespace Agent

theorem look_orphaned (s : AgentSetup) (a : Agent) (w : World) :
    (a.look s w).1.orphaned = a.orphaned := by
  unfold look startNext
  dsimp only
  split
  · split <;> rfl
  · rfl

/-- The agent knows of the end of the channel once it heard of it. -/
theorem step_orphaned (s : AgentSetup) (signal : Signal) (a : Agent) (w : World) :
    (a.step s signal w).1.orphaned = true ↔ a.orphaned = true ∨ signal = .orphaned := by
  have hask : ∀ waitMs ticket (a : Agent) w,
      (a.requestShutdown waitMs ticket w).1.orphaned = a.orphaned := by
    intro waitMs ticket a w
    unfold requestShutdown
    cases a.closing <;> rfl
  have hkeep : signal ≠ .orphaned → (a.receive s signal w).1.orphaned = a.orphaned := by
    intro hs
    cases signal with
    | finished => rfl
    | command c =>
      cases c with
      | detected p => rfl
      | scan p => rfl
      | flush =>
        dsimp only [receive, handle]
        split
        · rfl
        · unfold startNext
          split <;> rfl
      | shutdown ticket => exact hask ..
    | orphaned => exact absurd rfl hs
    | tick => rfl
  have hlook : (a.step s signal w).1.orphaned = (a.receive s signal w).1.orphaned := look_orphaned ..
  rw [hlook]
  by_cases hs : signal = .orphaned
  · subst hs
    exact iff_of_true (hask _ none { a with orphaned := true } _) (.inr rfl)
  · rw [hkeep hs, or_iff_left hs]

end Agent

namespace Run

variable {r : Run} {o : Outset} {came : List Command} {signals : List Signal}

/-! ## Who is left -/

/-- Nobody comes back who could tell the agent something. -/
theorem act_handle (h : r.service.handle = false) (m : Move) :
    (r.act m).service.handle = false := by
  have still (hm : m.still = true) : (r.act m).service.handle = false :=
    (r.act_still hm).handle.trans h
  cases m with
  | send c =>
    obtain ⟨inbox, hs⟩ := r.service.send_getD c
    rw [act, hs]
    exact h
  | release => rfl
  | notify c => exact h
  | hear signal =>
    rw [act]
    split
    · exact ((r.hear_still signal).handle.trans (r.service.taken_still signal).handle).trans h
    · exact h
  | watch =>
    show (r.service.runWatcher r.world).1.handle = false
    unfold Service.runWatcher
    split <;> exact h
  | finish =>
    rw [act]
    split <;> exact h
  | _ => exact still rfl

/-- Only the end of all closes the watcher. -/
theorem act_watcher (r : Run) {m : Move} (hm : m ≠ .finish) :
    (r.act m).service.watcher.isSome = r.service.watcher.isSome := by
  have still (hm : m.still = true) :
      (r.act m).service.watcher.isSome = r.service.watcher.isSome := by
    rw [(r.act_still hm).watcher]
  cases m with
  | send c =>
    obtain ⟨inbox, hs⟩ := r.service.send_getD c
    rw [act, hs]
  | release => rfl
  | notify c => exact Option.isSome_map
  | hear signal =>
    rw [act]
    split
    · rw [(r.hear_still signal).watcher, (r.service.taken_still signal).watcher]
    · rfl
  | watch =>
    show (r.service.runWatcher r.world).1.watcher.isSome = _
    unfold Service.runWatcher
    split
    · rfl
    · rename_i hx
      rw [hx]
      rfl
  | finish => exact absurd rfl hm
  | _ => exact still rfl

/-- Nobody begins to watch. -/
theorem act_unwatched (h : r.service.watcher = none) (m : Move) :
    (r.act m).service.watcher = none := by
  by_cases hm : m = .finish
  · subst hm
    rw [act]
    split
    · rfl
    · exact h
  · have hsome := r.act_watcher hm
    rw [h, Option.isSome_none] at hsome
    exact Option.isNone_iff_eq_none.1 (Option.isSome_eq_false_iff.1 hsome)

/-- **Until all has ended** there is a watcher if there was one at the outset. -/
theorem play_watcher (o : Outset) (moves : List Move)
    (he : (play o moves).service.ended = false) :
    (play o moves).service.watcher.isSome = o.watcher.isSome := by
  induction moves using List.reverseRecOn with
  | nil => rfl
  | append_singleton moves m ih =>
    rw [play_concat] at he ⊢
    have hgoing : (play o moves).service.ended = false := by
      cases hend : (play o moves).service.ended with
      | false => rfl
      | true =>
        have hstill := (act_ended (play_waiting o moves) hend m).1
        rw [he] at hstill
        cases hstill
    by_cases hm : m = .finish
    · -- the finish changes nothing, or ends all
      subst hm
      rw [act] at he ⊢
      split at he
      · cases he
      · rename_i hno
        rw [if_neg hno]
        exact ih hgoing
    · rw [act_watcher _ hm]
      exact ih hgoing

/-- With nobody outside, only the watcher puts something into the channel, and only files. -/
theorem mem_entering (h : r.service.handle = false) {m : Move} {c : Command}
    (hc : c ∈ r.entering m) : r.service.watcher ≠ none ∧ ∃ p, c = .detected p := by
  cases m with
  | send c' =>
    have hgone : r.service.send c' = none := if_pos (.inr (by rw [h]; rfl))
    rw [entering, hgone] at hc
    cases hc
  | watch =>
    rw [entering, Service.settling] at hc
    cases hx : r.service.watcher with
    | none =>
      rw [hx] at hc
      cases hc
    | some x =>
      rw [hx] at hc
      obtain ⟨p, -, rfl⟩ := List.mem_map.1 hc
      exact ⟨Option.some_ne_none x, p, rfl⟩
  | _ => cases hc

theorem mem_along_entering (h : r.service.handle = false) {moves : List Move} {c : Command}
    (hc : c ∈ r.along entering moves) : r.service.watcher ≠ none ∧ ∃ p, c = .detected p := by
  induction moves generalizing r with
  | nil => cases hc
  | cons m moves ih =>
    rcases List.mem_append.1 hc with hm | hmoves
    · exact mem_entering h hm
    · obtain ⟨hw, hp⟩ := ih (act_handle h m) hmoves
      exact ⟨fun hn => hw (act_unwatched hn m), hp⟩

/-- **Nothing comes into a channel that nobody can reach**, and no command is heard from there. -/
theorem act_deserted (h : r.service.Deserted) (m : Move) : (r.act m).service.Deserted ∧
    r.entering m = [] ∧ commandsOf (r.hearing m) = [] := by
  have hin : r.entering m = [] :=
    List.eq_nil_iff_forall_not_mem.2 fun c hc => (mem_entering h.handle hc).1 h.watcher
  have still (hm : m.still = true) : (r.act m).service.inbox = [] :=
    (r.act_still hm).inbox.trans h.inbox
  refine ⟨⟨act_handle h.handle m, act_unwatched h.watcher m, ?_⟩, hin, ?_⟩
  · cases m with
    | send c =>
      have hgone : r.service.send c = none := if_pos (.inr (by rw [h.handle]; rfl))
      rw [act, hgone]
      exact h.inbox
    | hear signal =>
      rw [act]
      split
      · rename_i hs
        have hempty := h.inbox
        rw [inbox_of_hears hs.2.2] at hempty
        rw [(r.hear_still signal).inbox]
        exact (List.append_eq_nil_iff.1 hempty).2
      · exact h.inbox
    | watch =>
      have hempty : (r.act .watch).service.inbox = r.service.inbox ++ r.entering .watch :=
        (Service.runWatcher_channel r.service r.world).1
      rw [hempty, hin, h.inbox, List.append_nil]
    | finish =>
      rw [act]
      split
      · rfl
      · exact h.inbox
    | release => exact h.inbox
    | notify c => exact h.inbox
    | _ => exact still rfl
  · cases m with
    | hear signal =>
      rw [hearing]
      split
      · rename_i hs
        cases signal with
        | command c =>
          have hhead : r.service.inbox.head? = some c := hs.2.2
          rw [h.inbox] at hhead
          cases hhead
        | _ => rfl
      · rfl
    | _ => rfl

/-! ## The end of the channel -/

/-- Beside its signals the agent changes no more than its task and its timer. -/
theorem act_agent (hw : r.service.Waiting) {m : Move} (hm : ∀ signal, m ≠ .hear signal) :
    ∃ running lookedAt, (r.act m).service.agent = { r.service.agent with running, lookedAt } := by
  have beside : m.beside = true →
      ∃ running lookedAt, (r.act m).service.agent = { r.service.agent with running, lookedAt } := by
    intro hb
    obtain ⟨s, w, he, hs, -⟩ := act_beside hw hb
    rw [he]
    exact ⟨_, _, hs.agent⟩
  cases m with
  | pass ms files => exact ⟨_, _, rfl⟩
  | send c => exact beside rfl
  | release => exact beside rfl
  | notify c => exact beside rfl
  | begin =>
    cases hb : r.service.begun with
    | true =>
      rw [act, begin, Service.beginLoop, if_pos hb]
      exact ⟨_, _, rfl⟩
    | false =>
      rw [act, begin_eq hw hb, hw.fresh hb]
      exact ⟨_, _, rfl⟩
  | hear signal => exact absurd rfl (hm signal)
  | resume =>
    show ∃ running lookedAt, (r.service.resumeTask r.world).1.agent = _
    unfold Service.resumeTask
    split
    · exact ⟨_, _, rfl⟩
    · exact ⟨_, _, rfl⟩
  | watch => exact beside rfl
  | beat => exact beside rfl
  | finish =>
    rw [act]
    split
    · exact ⟨_, _, rfl⟩
    · exact ⟨_, _, rfl⟩

theorem hear_orphaned (r : Run) (signal : Signal) :
    (r.hear signal).service.agent.orphaned = true ↔
      r.service.agent.orphaned = true ∨ signal = .orphaned := by
  have hstep := Agent.step_orphaned r.service.setup signal r.service.agent r.world
  rw [hear_service]
  dsimp only
  split
  · exact hstep
  · exact hstep

/-- The loop heard of the end of the channel once, after all the commands that came. -/
def Exhausts (came : List Command) (signals : List Signal) : Prop :=
  ∃ before after, signals = before ++ .orphaned :: after ∧ .orphaned ∉ before ++ after ∧
    commandsOf before = came ∧ commandsOf after = []

/-- **The account of the end of the channel.** -/
structure Severance (o : Outset) (came : List Command) (signals : List Signal) (r : Run) : Prop where
  /-- A shutdown is under way if a signal asked for it. -/
  closing : r.service.agent.closing ≠ none ↔ ∃ signal ∈ signals, signal.closes = true
  orphaned : r.service.agent.orphaned = true ↔ .orphaned ∈ signals
  /-- Only a channel that nobody can reach comes to an end. -/
  last : .orphaned ∈ signals → o.watcher = none ∧ r.service.Deserted ∧ Exhausts came signals

theorem start_severance (o : Outset) : Severance o [] [] (start o) where
  closing := iff_of_false (fun h => h rfl) (by simp)
  orphaned := iff_of_false nofun (by simp)
  last h := nomatch h

namespace Severance

/-- A move with which the loop hears nothing. -/
theorem quiet (hw : r.service.Waiting) (h : Severance o came signals r) {m : Move}
    (hm : ∀ signal, m ≠ .hear signal) :
    Severance o (came ++ r.entering m) signals (r.act m) := by
  obtain ⟨running, lookedAt, ha⟩ := act_agent hw hm
  refine ⟨?_, ?_, fun hs => ?_⟩
  · rw [ha]
    exact h.closing
  · rw [ha]
    exact h.orphaned
  · obtain ⟨ho, hd, hsplit⟩ := h.last hs
    obtain ⟨hnext, hin, -⟩ := act_deserted hd m
    rw [hin, List.append_nil]
    exact ⟨ho, hnext, hsplit⟩

/-- The end of the channel is heard of after all that came in. -/
theorem hearOrphaned (hc : Channel came signals r) (h : Severance o came signals r)
    (hgoing : r.service.ended = false) (hwatch : r.service.watcher.isSome = o.watcher.isSome)
    (hs : r.service.Hears r.world .orphaned) :
    o.watcher = none ∧ r.service.Deserted ∧ Exhausts came (signals ++ [.orphaned]) := by
  obtain ⟨hinbox, hhandle, hnone, hfirst⟩ := hs
  have hw : r.service.watcher = none := Option.isNone_iff_eq_none.1 hnone
  rw [hw] at hwatch
  have hnew : .orphaned ∉ signals := by
    rw [← h.orphaned, hfirst]
    exact Bool.false_ne_true
  have hcame := hc.order hgoing
  rw [hinbox, List.append_nil] at hcame
  refine ⟨Option.isNone_iff_eq_none.1 (Option.isSome_eq_false_iff.1 hwatch.symm),
    ⟨hhandle, hw, hinbox⟩, signals, [], rfl, ?_, hcame.symm, rfl⟩
  rw [List.append_nil]
  exact hnew

theorem hear (hw : r.service.Waiting) (hc : Channel came signals r)
    (h : Severance o came signals r)
    (hwatch : r.service.ended = false → r.service.watcher.isSome = o.watcher.isSome)
    (signal : Signal) :
    Severance o came (signals ++ r.hearing (.hear signal)) (r.act (.hear signal)) := by
  by_cases hs : r.service.begun ∧ r.service.agent.left = false ∧ r.service.Hears r.world signal
  · have hgoing := hw.going hs.2.1
    have hact : r.act (.hear signal) = r.hear signal := if_pos hs
    have hout : r.hearing (.hear signal) = [signal] := if_pos hs
    rw [hout]
    refine ⟨?_, ?_, fun hmem => ?_⟩
    · rw [hact, hear_closing, h.closing]
      simp [List.mem_append, or_and_right, exists_or]
    · rw [hact, hear_orphaned, h.orphaned, List.mem_append, List.mem_singleton, eq_comm]
    · rcases List.mem_append.1 hmem with hbefore | hnow
      · -- it was heard of before, so what is heard now is no command
        obtain ⟨ho, hd, before, after, hsplit, honce, hcame, hnone⟩ := h.last hbefore
        obtain ⟨hnext, -, hnothing⟩ := act_deserted hd (.hear signal)
        rw [hout] at hnothing
        have hother : signal ≠ .orphaned := by
          rintro rfl
          have hfirst := hs.2.2.2.2.2
          rw [h.orphaned.2 hbefore] at hfirst
          cases hfirst
        refine ⟨ho, hnext, before, after ++ [signal], ?_, ?_, hcame, ?_⟩
        · rw [hsplit, List.append_assoc, List.cons_append]
        · rw [← List.append_assoc, List.mem_append, List.mem_singleton]
          exact not_or.2 ⟨honce, Ne.symm hother⟩
        · rw [commandsOf_append, hnone, hnothing]
          rfl
      · obtain rfl := List.mem_singleton.1 hnow
        obtain ⟨ho, hd, hsplit⟩ := hearOrphaned hc h hgoing (hwatch hgoing) hs.2.2
        exact ⟨ho, (act_deserted hd _).1, hsplit⟩
  · have hout : r.hearing (.hear signal) = [] := if_neg hs
    rw [act, if_neg hs, hout, List.append_nil]
    exact h

end Severance

/-- **Along every run** the account holds. -/
theorem play_severance (o : Outset) (moves : List Move) :
    Severance o (entered o moves) (heard o moves) (play o moves) := by
  induction moves using List.reverseRecOn with
  | nil => exact start_severance o
  | append_singleton moves m ih =>
    have hw := play_waiting o moves
    rw [entered_append, heard_append, along_single, along_single, play_concat]
    by_cases hm : ∃ signal, m = .hear signal
    · obtain ⟨signal, rfl⟩ := hm
      have hin : entered o moves ++ (play o moves).entering (.hear signal) = entered o moves :=
        List.append_nil _
      rw [hin]
      exact ih.hear hw (play_channel o moves) (play_watcher o moves) signal
    · have hquiet : ∀ signal, m ≠ .hear signal := fun signal he => hm ⟨signal, he⟩
      rw [hearing_eq_nil _ hquiet, List.append_nil]
      exact ih.quiet hw hquiet

/-! ## An agent that was let go -/

/-- What is heard came in. -/
theorem mem_entered {o : Outset} {moves : List Move} {c : Command}
    (h : .command c ∈ heard o moves) : c ∈ entered o moves := by
  have hc : c ∈ commandsOf (heard o moves) := List.mem_filterMap.2 ⟨_, h, rfl⟩
  have hchannel := play_channel o moves
  cases he : (play o moves).service.ended with
  | false =>
    rw [hchannel.order he]
    exact List.mem_append_left _ hc
  | true =>
    obtain ⟨-, _, _, lost, -, hcame, -⟩ := hchannel.answered he
    rw [hcame]
    exact List.mem_append_left _ hc

/-- With nothing left to be heard, the end of the channel was heard of if nobody is left. -/
theorem orphaned_of_nextSignal {s : Service} {w : World} (h : s.nextSignal w = none)
    (ho : s.isOrphaned = true) : s.agent.orphaned = true := by
  unfold Service.nextSignal at h
  split at h
  · cases h
  · split at h
    · cases h
    · split at h
      · cases h
      · rename_i hno
        rw [ho, Bool.true_and, Bool.not_eq_true', Bool.not_eq_false] at hno
        exact hno

section

variable {moves : List Move} (hs : ∀ t, .shutdown t ∉ entered o moves)
include hs

/-- If no request came in, only the end of the channel asks for a shutdown. -/
theorem eq_orphaned_of_closes {signal : Signal} (h : signal ∈ heard o moves)
    (hc : signal.closes = true) : signal = .orphaned := by
  cases signal with
  | orphaned => rfl
  | command c =>
    cases c with
    | shutdown t => exact absurd (mem_entered h) (hs t)
    | _ => cases hc
  | _ => cases hc

theorem closing_iff_orphaned :
    (play o moves).service.agent.closing ≠ none ↔ .orphaned ∈ heard o moves := by
  rw [(play_severance o moves).closing]
  constructor
  · rintro ⟨signal, hm, hc⟩
    rw [← eq_orphaned_of_closes hs hm hc]
    exact hm
  · exact fun h => ⟨_, h, rfl⟩

theorem tickets_eq_nil : (play o moves).service.agent.tickets = [] := by
  rw [(play_channel o moves).tickets, List.eq_nil_iff_forall_not_mem]
  intro t ht
  obtain ⟨signal, hm, hsignal⟩ := List.mem_filterMap.1 (mem_ticketsOf.1 ht)
  cases signal with
  | command c =>
    obtain rfl := Option.some.inj hsignal
    exact hs t (mem_entered hm)
  | _ => cases hsignal

/-- Nobody outside can ask for a shutdown any more. -/
theorem not_mem_entered (hh : (play o moves).service.handle = false) (more : List Move) (t : Nat) :
    .shutdown t ∉ entered o (moves ++ more) := by
  rw [entered_append, List.mem_append]
  rintro (hbefore | hafter)
  · exact hs t hbefore
  · obtain ⟨-, p, hp⟩ := mem_along_entering hh hafter
    cases hp

/-- **An agent with a watcher that was let go** hears of no end of its channel, and goes on. -/
theorem play_attended (hh : (play o moves).service.handle = false) (hw : o.watcher ≠ none)
    (more : List Move) :
    (play o (moves ++ more)).service.agent.closing = none ∧
      (play o (moves ++ more)).service.ended = false ∧ .orphaned ∉ heard o (moves ++ more) := by
  have hnever : .orphaned ∉ heard o (moves ++ more) := fun h =>
    hw ((play_severance o (moves ++ more)).last h).1
  have hclosing : (play o (moves ++ more)).service.agent.closing = none := by
    by_contra hc
    exact hnever ((closing_iff_orphaned (not_mem_entered hs hh more)).1 hc)
  refine ⟨hclosing, ?_, hnever⟩
  cases he : (play o (moves ++ more)).service.ended with
  | false => rfl
  | true =>
    obtain ⟨hl, -⟩ := (play_waiting o (moves ++ more)).atEnd he
    exact absurd hclosing (play_left_closing o _ hl)

theorem not_ends_of_attended (hh : (play o moves).service.handle = false) (hw : o.watcher ≠ none) :
    ¬ (play o moves).service.Ends (play o moves).world (play o moves).world.clock := by
  rintro ⟨time, hends⟩
  obtain ⟨more, -, hmachine, -⟩ := advance_moves (play o moves) (play_waiting o moves)
    (Nat.le_refl _) (Nat.le_max_right time _)
  have hend := hends (max time (play o moves).world.clock) (Nat.le_max_left ..)
  rw [← hmachine, ← play_append, (play_attended hs hh hw more).2.1] at hend
  cases hend

/-- **An agent without a watcher that was let go** ends. -/
theorem ends_of_deserted (hh : (play o moves).service.handle = false) (hw : o.watcher = none) :
    (play o moves).service.Ends (play o moves).world (play o moves).world.clock := by
  refine play_ends o moves fun more hturned he => ?_
  rcases hturned.heard with hl | hn
  · exact play_left_closing o _ hl
  · have hlater := not_mem_entered hs hh more
    rw [closing_iff_orphaned hlater, ← (play_severance o (moves ++ more)).orphaned]
    have hhandle : (play o (moves ++ more)).service.handle = false := by
      rw [play_append]
      exact goOn_induction (I := fun r => r.service.handle = false) (fun _ m h => act_handle h m)
        hh more
    have hwatcher : (play o (moves ++ more)).service.watcher = none := by
      have hwatch := play_watcher o _ he
      rw [hw] at hwatch
      exact Option.isNone_iff_eq_none.1 (Option.isSome_eq_false_iff.1 hwatch)
    -- nobody is left, so the loop would hear of the end
    have horphaned : (play o (moves ++ more)).service.isOrphaned = true := by
      rw [Service.isOrphaned, hhandle, hwatcher, tickets_eq_nil hlater]
      rfl
    exact orphaned_of_nextSignal hn horphaned

end

/-- **What becomes of an agent that was let go**, when nobody asked for a shutdown before. It ends if it
has no watcher, and only then. The loop hears all the commands that came, in order, and then of the end
of the channel, once; this alone asks for the shutdown, and there is no ticket to answer. From there on
it is a shutdown like any other, and the last of all is to tell the listeners. -/
theorem play_released (o : Outset) (moves : List Move)
    (hh : (play o moves).service.handle = false) (hs : ∀ t, .shutdown t ∉ entered o moves) :
    let r := play o moves
    (r.service.Ends r.world r.world.clock ↔ o.watcher = none) ∧ ∀ more,
      let q := play o (moves ++ more)
      let signals := heard o (moves ++ more)
      (q.service.agent.closing ≠ none ↔ .orphaned ∈ signals) ∧
      (∀ signal ∈ signals, signal.closes = true → signal = .orphaned) ∧
      (.orphaned ∈ signals → o.watcher = none ∧ Exhausts (entered o moves) signals ∧
        ∃ c, q.service.agent.closing = some c ∧ c.tickets = [] ∧
          ∀ later, Closes o c q (play o (moves ++ more ++ later))) ∧
      (q.service.ended = true → .orphaned ∈ signals ∧ q.service.replies = [] ∧
        ∃ time before, q.world.trace = before ++ [(time, .emitted .shutdown)]) := by
  intro r
  refine ⟨⟨fun hends => ?_, ends_of_deserted hs hh⟩, fun more => ?_⟩
  · by_contra hw
    exact not_ends_of_attended hs hh hw hends
  intro q signals
  have hlater := not_mem_entered hs hh more
  have hclosing : q.service.agent.closing ≠ none ↔ .orphaned ∈ signals :=
    closing_iff_orphaned hlater
  have hseverance := play_severance o (moves ++ more)
  have hchannel := play_channel o (moves ++ more)
  have htickets : q.service.agent.tickets = [] := tickets_eq_nil hlater
  refine ⟨hclosing, fun signal => eq_orphaned_of_closes hlater, fun hm => ?_, fun he => ?_⟩
  · obtain ⟨hw, -, hexhausts⟩ := hseverance.last hm
    -- nothing came in since
    have hwatch : r.service.watcher = none :=
      goOn_induction (I := fun r => r.service.watcher = none) (fun _ m h => act_unwatched h m)
        (r := start o) hw moves
    have hnothing : r.along entering more = [] :=
      List.eq_nil_iff_forall_not_mem.2 fun c hc => (mem_along_entering hh hc).1 hwatch
    have hcame : entered o (moves ++ more) = entered o moves := by
      rw [entered_append, hnothing, List.append_nil]
    rw [hcame] at hexhausts
    obtain ⟨c, hc⟩ := Option.ne_none_iff_exists'.1 (hclosing.2 hm)
    refine ⟨hw, hexhausts, c, hc, ?_, fun later => closes_of_closing hc later⟩
    rw [Agent.tickets, hc] at htickets
    exact htickets
  · obtain ⟨-, time, before, lost, htrace, hcame, hreplies⟩ := hchannel.answered he
    obtain ⟨hl, -⟩ := (play_waiting o (moves ++ more)).atEnd he
    refine ⟨hclosing.1 (play_left_closing o _ hl), ?_, time, before, htrace⟩
    have hnone : ticketsOf (entered o (moves ++ more)) = [] :=
      List.eq_nil_iff_forall_not_mem.2 fun t ht => hlater t (mem_ticketsOf.1 ht)
    rw [hcame, ticketsOf_append] at hnone
    obtain ⟨hheard, hlost⟩ := List.append_eq_nil_iff.1 hnone
    rw [hreplies, answersAt, hheard, hlost]
    rfl

/-- A file is on its way when the agent is let go. -/
def releaseMoves : List Move := [.begin, .send (.detected ⟨[1]⟩), .release]

theorem not_mem_releaseMoves (t : Nat) : .shutdown t ∉ entered slowOutset releaseMoves := by
  have hcame : entered slowOutset releaseMoves = [.detected ⟨[1]⟩] := rfl
  rw [hcame, List.mem_singleton]
  nofun

/-- Without a watcher the agent scans that file and ends. -/
theorem play_released_slow :
    (play slowOutset releaseMoves).service.handle = false ∧
    (∀ t, .shutdown t ∉ entered slowOutset releaseMoves) ∧
    let r := play slowOutset releaseMoves
    (r.service.Ends r.world r.world.clock ↔ slowOutset.watcher = none) ∧ ∀ more,
      let q := play slowOutset (releaseMoves ++ more)
      let signals := heard slowOutset (releaseMoves ++ more)
      (q.service.agent.closing ≠ none ↔ .orphaned ∈ signals) ∧
      (∀ signal ∈ signals, signal.closes = true → signal = .orphaned) ∧
      (.orphaned ∈ signals → slowOutset.watcher = none ∧
        Exhausts (entered slowOutset releaseMoves) signals ∧
        ∃ c, q.service.agent.closing = some c ∧ c.tickets = [] ∧
          ∀ later, Closes slowOutset c q (play slowOutset (releaseMoves ++ more ++ later))) ∧
      (q.service.ended = true → .orphaned ∈ signals ∧ q.service.replies = [] ∧
        ∃ time before, q.world.trace = before ++ [(time, .emitted .shutdown)]) :=
  ⟨rfl, not_mem_releaseMoves, play_released slowOutset releaseMoves rfl not_mem_releaseMoves⟩

/-- The same agent with a watcher. -/
def watchedOutset : Outset := { slowOutset with watcher := some ⟨⟨[]⟩, .usual, [], [], [], []⟩ }

/-- It is let go, nothing is on its way, and nobody asks for a shutdown: and yet it never ends. -/
theorem release_watched :
    (play watchedOutset [.begin, .release]).service.handle = false ∧
      entered watchedOutset [.begin, .release] = [] ∧
      ¬ (play watchedOutset [.begin, .release]).service.Ends
        (play watchedOutset [.begin, .release]).world
        (play watchedOutset [.begin, .release]).world.clock ∧
      ∀ more, (play watchedOutset ([.begin, .release] ++ more)).service.ended = false ∧
        .orphaned ∉ heard watchedOutset ([.begin, .release] ++ more) := by
  have hnone : ∀ t, .shutdown t ∉ entered watchedOutset [.begin, .release] := nofun
  have hw : watchedOutset.watcher ≠ none := nofun
  exact ⟨rfl, rfl, not_ends_of_attended hnone rfl hw,
    fun more => (play_attended hnone rfl hw more).2⟩

end Run

end DownloadTriage
