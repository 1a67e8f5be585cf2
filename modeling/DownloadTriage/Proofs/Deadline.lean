import DownloadTriage.Proofs.Closing
import DownloadTriage.Proofs.Machine

/-!
# The deadline of a shutdown

The first request sets the deadline, and no later one moves it. The loop is left at most one poll
after it, however many signals come and whether or not the task under way ever ends: a look that
does not leave the loop is before the deadline, and the timer that it sets runs out a poll later.

* `Run.hear_deadline`: the first request sets the deadline.
* `Run.act_exit`: a prompt move does not leave the loop later than that.
* `Run.play_deadline`: the bound, for every prompt run and for the machine.
-/

namespace DownloadTriage

namespace Agent

theorem requestShutdown_deadline (waitMs : Nat) (ticket : Option Nat) {a : Agent} {w : World}
    {c : Closing} (hn : a.closing = none)
    (hc : (a.requestShutdown waitMs ticket w).1.closing = some c) :
    c.deadline = w.clock + waitMs := by
  unfold requestShutdown at hc
  rw [hn] at hc
  cases hc
  rfl

/-- **The first request** sets the deadline. -/
theorem receive_deadline (s : AgentSetup) {signal : Signal} {a : Agent} {w : World} {c : Closing}
    (hn : a.closing = none) (hc : (a.receive s signal w).1.closing = some c) :
    c.deadline = w.clock + s.shutdownWaitMs := by
  have hcloses : signal.closes = true := by
    have hsome : (a.receive s signal w).1.closing ≠ none := by
      rw [hc]
      exact Option.some_ne_none c
    exact ((receive_closing s signal a w).1 hsome).resolve_left (absurd hn)
  cases signal with
  | command command =>
    cases command with
    | shutdown ticket => exact requestShutdown_deadline _ _ hn hc
    | _ => cases hcloses
  | orphaned =>
    have hd := requestShutdown_deadline s.shutdownWaitMs none (a := { a with orphaned := true })
      (w := w.say [.info "[Monitor] All agent handles dropped, shutting down."]) hn hc
    exact hd
  | _ => cases hcloses

/-- A look in a shutdown that finds nothing to do leaves the loop. -/
theorem step_left_of_isIdle (s : AgentSetup) {signal : Signal} {a : Agent} {w : World}
    (hc : a.closing ≠ none) (hi : (a.step s signal w).1.isIdle = true) :
    (a.step s signal w).1.left = true := by
  have hclosing : (a.step s signal w).1.closing ≠ none := by
    have hlook := look_closing s (a.receive s signal w).1 (a.receive s signal w).2
    have hreceive := (receive_closing s signal a w).2 (.inl hc)
    exact hlook.trans_ne hreceive
  have hleft : (a.step s signal w).1.left =
      (a.step s signal w).1.mayLeave (a.step s signal w).1.lookedAt := look_left ..
  obtain ⟨c, hc⟩ := Option.ne_none_iff_exists'.1 hclosing
  rw [hleft, mayLeave, hc]
  dsimp only
  rw [hi, Bool.true_or]

end Agent

namespace Run

variable {q : Run} {c : Closing}

theorem hear_deadline {signal : Signal} (hn : q.service.agent.closing = none)
    (hc : (q.hear signal).service.agent.closing = some c) :
    c.deadline = q.world.clock + q.service.setup.shutdownWaitMs := by
  unfold hear at hc
  dsimp only at hc
  rw [leave_closing] at hc
  have hreceive := (Agent.look_closing ..).symm.trans hc
  have hd := Agent.receive_deadline _ (by rw [Service.taken_agent, hn]) hreceive
  rw [Service.taken_setup] at hd
  exact hd

/-- A shutdown is asked for only of a loop that has begun. -/
theorem begun_of_closing (h : q.service.Waiting) (hc : q.service.agent.closing = some c) :
    q.service.begun = true := by
  cases hb : q.service.begun with
  | true => rfl
  | false =>
    rw [h.fresh hb] at hc
    cases hc

/-- A look that did not leave the loop was before the deadline. -/
theorem lookedAt_lt (h : q.service.Waiting) (hc : q.service.agent.closing = some c)
    (hl : q.service.agent.left = false) : q.service.agent.lookedAt < c.deadline := by
  have hstays := h.stays hl
  refine Nat.lt_of_not_le fun hdue => ?_
  rw [mayLeave_iff.2 ⟨c, hc, .inr hdue⟩] at hstays
  cases hstays

/-- While the loop waits, it is before the deadline or within a poll of it. -/
theorem clock_lt (h : q.service.Waiting) (ht : q.service.OnTime q.world.clock)
    (hc : q.service.agent.closing = some c) (hl : q.service.agent.left = false) :
    q.world.clock < c.deadline + Agent.pollMs := by
  have hlook := lookedAt_lt h hc hl
  have htimer := ht (by rw [hc]; exact Option.some_ne_none c) hl
  omega

/-- **Every move** of a loop on time leaves it at most a poll after the deadline. -/
theorem act_exit (h : q.service.Waiting) (ht : q.service.OnTime q.world.clock)
    (hc : q.service.agent.closing = some c)
    (hl : q.service.agent.left = true → q.service.agent.lookedAt ≤ c.deadline + Agent.pollMs)
    (m : Move) (hleft : (q.act m).service.agent.left = true) :
    (q.act m).service.agent.lookedAt ≤ c.deadline + Agent.pollMs := by
  by_cases hs : ∃ signal, m = .hear signal
  · obtain ⟨signal, rfl⟩ := hs
    rw [act] at hleft ⊢
    split
    · rename_i hheard
      rw [hear_lookedAt]
      exact Nat.le_of_lt (clock_lt h ht hc hheard.2.1)
    · rename_i hmissed
      rw [if_neg hmissed] at hleft
      exact hl hleft
  · obtain ⟨he, hlook⟩ := act_unlooked h (begun_of_closing h hc) fun signal he => hs ⟨signal, he⟩
    rw [hlook]
    exact hl (he ▸ hleft)

/-- **The bound** of a shutdown that was asked for at a time, with so long to wait. -/
structure Bounded (time waitMs : Nat) (q : Run) : Prop where
  /-- Later requests do not move the deadline. -/
  deadline : ∃ c, q.service.agent.closing = some c ∧ c.deadline = time + waitMs
  /-- The look that left the loop was no later than a poll after the deadline. -/
  exit : q.service.agent.left = true → q.service.agent.lookedAt ≤ time + waitMs + Agent.pollMs
  /-- A loop that was not left has something to do, and there is still time. -/
  waits : q.service.agent.left = false →
    q.service.agent.isIdle = false ∧ q.world.clock < time + waitMs + Agent.pollMs
  /-- A look that finds nothing to do leaves the loop there and then. -/
  idle : ∀ signal, (q.service.agent.step q.service.setup signal q.world).1.isIdle = true →
    (q.hear signal).service.agent.left = true ∧
      (q.hear signal).service.agent.lookedAt = q.world.clock

theorem hear_left (q : Run) (signal : Signal) : (q.hear signal).service.agent.left =
    (q.service.agent.step q.service.setup signal q.world).1.left := by
  rw [hear_service]
  dsimp only
  split <;> rfl

theorem bounded_of_closing (h : q.service.Waiting) (ht : q.service.OnTime q.world.clock)
    (hc : q.service.agent.closing = some c)
    (hl : q.service.agent.left = true → q.service.agent.lookedAt ≤ c.deadline + Agent.pollMs)
    {time waitMs : Nat} (hd : c.deadline = time + waitMs) : Bounded time waitMs q where
  deadline := ⟨c, hc, hd⟩
  exit hleft := hd ▸ hl hleft
  waits hstays := by
    refine ⟨?_, hd ▸ clock_lt h ht hc hstays⟩
    have hmay := h.stays hstays
    rw [Agent.mayLeave, hc] at hmay
    exact (Bool.or_eq_false_iff.1 hmay).1
  idle signal hi := by
    rw [hear_left, hear_lookedAt]
    exact ⟨Agent.step_left_of_isIdle _ (by rw [hc]; exact Option.some_ne_none c) hi, rfl⟩

/-- **Along a prompt run** the bound stays. -/
theorem goOn_bounded {time waitMs : Nat} (h : q.service.Waiting)
    (ht : q.service.OnTime q.world.clock) (hq : Bounded time waitMs q) {more : List Move}
    (hp : q.Prompt more) : Bounded time waitMs (q.goOn more) := by
  induction more generalizing q with
  | nil => exact hq
  | cons m more ih =>
    obtain ⟨c, hc, hd⟩ := hq.deadline
    have hnext := act_waiting h m
    have htimer := act_onTime h ht hp.1
    -- a later request keeps the deadline of the first
    obtain ⟨c', hc', hd'⟩ :=
      ((act_steps h m).preserves (fun _ _ hs h => hs.drains h) (Drains.refl hc)).deadline
    have hexit := act_exit h ht hc (fun hleft => hd ▸ hq.exit hleft) m
    rw [← hd'] at hexit
    exact ih hnext htimer (bounded_of_closing hnext htimer hc' hexit (hd'.trans hd)) hp.2

/-- **The machine leaves the loop** by the time a poll after the deadline. -/
theorem advance_left {time waitMs : Nat} (h : q.service.Waiting)
    (ht : q.service.OnTime q.world.clock) (hq : Bounded time waitMs q) {target : Nat}
    (hnow : q.world.clock ≤ target) (htarget : time + waitMs + Agent.pollMs ≤ target) :
    (Service.machine.advance q.world.clock target q.service q.world).1.agent.left = true := by
  obtain ⟨moves, hp, hs, -, hclock⟩ := advance_moves q h (Nat.le_refl _) hnow
  have hend := goOn_bounded h ht hq (hp ht)
  rw [← hs]
  cases hl : (q.goOn moves).service.agent.left with
  | true => rfl
  | false =>
    have hlate := (hend.waits hl).2
    omega

/-- **From the first request on** the loop is left at most a poll after its deadline, and the
machine leaves it, whatever comes in between. -/
theorem play_deadline (o : Outset) (moves : List Move) (m : Move) (more : List Move)
    (hfirst : ¬ Requested o moves) (h : Requested o (moves ++ [m]))
    (hp : (play o (moves ++ [m])).Prompt more) :
    let time := (play o moves).world.clock
    let q := play o (moves ++ [m] ++ more)
    Bounded time o.setup.shutdownWaitMs q ∧
      ∀ target, q.world.clock ≤ target →
        time + o.setup.shutdownWaitMs + Agent.pollMs ≤ target →
        (Service.machine.advance q.world.clock target q.service q.world).1.agent.left = true := by
  have hwaiting := play_waiting o moves
  have hn : (play o moves).service.agent.closing = none := by
    rw [requested_iff] at hfirst
    exact not_not.1 hfirst
  obtain ⟨c, hc⟩ := Option.ne_none_iff_exists'.1 ((requested_iff o _).1 h)
  obtain ⟨blocks, last, es, htold⟩ := play_told o moves
  -- the request is a signal that is heard at that time
  obtain ⟨signal, rfl, hheard⟩ : ∃ signal, m = .hear signal ∧ (play o moves).service.begun = true ∧
      (play o moves).service.agent.left = false ∧
      (play o moves).service.Hears (play o moves).world signal := by
    rcases requested_concat.1 h with hbefore | ⟨signal, hm, -, hheard⟩
    · exact absurd hbefore hfirst
    · exact ⟨signal, hm, hheard⟩
  have hact : (play o moves).act (.hear signal) = (play o moves).hear signal := if_pos hheard
  have hclock := act_clock hwaiting (m := .hear signal) nofun
  have hnext := act_waiting hwaiting (.hear signal)
  rw [play_concat] at hc hp
  rw [hact] at hc hp hclock hnext
  have hlook := hear_lookedAt (play o moves) signal
  have hd : c.deadline = (play o moves).world.clock + o.setup.shutdownWaitMs := by
    rw [← htold.setup]
    exact hear_deadline hn hc
  have htimer : ((play o moves).hear signal).service.OnTime
      ((play o moves).hear signal).world.clock := by
    intro _ _
    rw [hlook, hclock]
    exact Nat.le_add_right ..
  have hbound : Bounded (play o moves).world.clock o.setup.shutdownWaitMs
      ((play o moves).hear signal) :=
    bounded_of_closing hnext htimer hc (fun _ => by omega) hd
  dsimp only
  rw [play_append, play_concat, hact]
  refine ⟨goOn_bounded hnext htimer hbound hp, fun target hnow htarget => ?_⟩
  exact advance_left (goOn_waiting hnext more) (goOn_onTime hnext htimer hp)
    (goOn_bounded hnext htimer hbound hp) hnow htarget

/-- After that shutdown the first file is never done. A second request a moment before the deadline
sets the timer anew, so that time passes to a moment before the bound. -/
def lateMoves : List Move :=
  [.pass 99 ⟨[], []⟩, .send (.shutdown 8), .hear (.command (.shutdown 8)), .pass 100 ⟨[], []⟩]

theorem prompt_lateMoves : (play slowOutset (busyMoves ++ [shutdownMove])).Prompt lateMoves := by
  have wait : ∀ {r : Run} {ms : Nat} {files : FileTree} (moves : List Move),
      r.world.clock + ms ≤ r.service.agent.lookedAt + Agent.pollMs →
      (r.act (.pass ms files)).Prompt moves → r.Prompt (.pass ms files :: moves) := by
    intro r ms files moves hle hmoves
    refine ⟨?_, hmoves⟩
    rintro ms' files' ⟨⟩ _ _
    exact hle
  refine wait _ (by decide) ⟨nofun, nofun, wait _ (by decide) trivial⟩

/-- The loop still waits then, and is left at the next look. -/
theorem play_deadline_late :
    ¬ Requested slowOutset busyMoves ∧ Requested slowOutset (busyMoves ++ [shutdownMove]) ∧
    (play slowOutset (busyMoves ++ [shutdownMove])).Prompt lateMoves ∧
    let time := (play slowOutset busyMoves).world.clock
    let q := play slowOutset (busyMoves ++ [shutdownMove] ++ lateMoves)
    Bounded time slowOutset.setup.shutdownWaitMs q ∧
      ∀ target, q.world.clock ≤ target →
        time + slowOutset.setup.shutdownWaitMs + Agent.pollMs ≤ target →
        (Service.machine.advance q.world.clock target q.service q.world).1.agent.left = true := by
  have hfirst : ¬ Requested slowOutset busyMoves := by
    rw [requested_iff]
    exact not_not.2 rfl
  exact ⟨hfirst, requested_of_busyMoves, prompt_lateMoves,
    play_deadline slowOutset busyMoves shutdownMove lateMoves hfirst requested_of_busyMoves
      prompt_lateMoves⟩

end Run

end DownloadTriage
