import DownloadTriage.Proofs.Waiting

/-!
# The loop's timer

Each look of a loop that shuts down sets a timer anew, so every command that comes in between puts
it off. What bounds the wait all the same is that time does not pass beyond a timer that has run out
before the loop has looked. A run that keeps to this is **prompt**.

* `Run.goOn_onTime`: along a prompt run the last look is never longer ago than the timer.
* `Service.runLoop_woken`: after the machine turned its loop the timer has not run out.
* `Service.onTime_of_due`: the machine goes on before it does.
-/

namespace DownloadTriage

/-- While the loop shuts down, the timer set at its last look has not run out before that time. -/
def Service.OnTime (s : Service) (time : Nat) : Prop :=
  s.agent.closing ≠ none → s.agent.left = false → time ≤ s.agent.lookedAt + Agent.pollMs

namespace Run

/-- Time passes up to where the loop's timer runs out, and beyond only after the loop has looked. -/
def Prompt : Run → List Move → Prop
  | _, [] => True
  | r, m :: moves =>
    (∀ ms files, m = .pass ms files → r.service.OnTime (r.world.clock + ms)) ∧
      (r.act m).Prompt moves

theorem prompt_append (r : Run) (moves more : List Move) :
    r.Prompt (moves ++ more) ↔ r.Prompt moves ∧ (r.goOn moves).Prompt more := by
  induction moves generalizing r with
  | nil => exact (true_and _).symm ▸ Iff.rfl
  | cons m moves ih =>
    rw [List.cons_append, Prompt, Prompt, ih, and_assoc]
    rfl

/-- Moves that take no time are prompt. -/
theorem prompt_of_instant (r : Run) {moves : List Move}
    (h : ∀ m ∈ moves, ∀ ms files, m ≠ .pass ms files) : r.Prompt moves := by
  induction moves generalizing r with
  | nil => trivial
  | cons m moves ih =>
    obtain ⟨hm, hmoves⟩ := List.forall_mem_cons.1 h
    exact ⟨fun ms files he => absurd he (hm ms files), ih _ hmoves⟩

/-- Once the loop has begun, only a signal makes it look. -/
theorem act_unlooked {r : Run} (h : r.service.Waiting) (hb : r.service.begun = true) {m : Move}
    (hm : ∀ signal, m ≠ .hear signal) :
    (r.act m).service.agent.left = r.service.agent.left ∧
      (r.act m).service.agent.lookedAt = r.service.agent.lookedAt := by
  have beside : m.beside = true → (r.act m).service.agent.left = r.service.agent.left ∧
      (r.act m).service.agent.lookedAt = r.service.agent.lookedAt := by
    intro hbeside
    obtain ⟨s, w, he, hs, -⟩ := act_beside h hbeside
    rw [he, hs.agent]
    exact ⟨rfl, rfl⟩
  cases m with
  | pass ms files => exact ⟨rfl, rfl⟩
  | send c => exact beside rfl
  | release => exact beside rfl
  | notify c => exact beside rfl
  | begin =>
    show (r.service.beginLoop r.world).1.agent.left = _ ∧
      (r.service.beginLoop r.world).1.agent.lookedAt = _
    rw [Service.beginLoop, if_pos hb]
    exact ⟨rfl, rfl⟩
  | hear signal => exact absurd rfl (hm signal)
  | resume =>
    show (r.service.resumeTask r.world).1.agent.left = _ ∧
      (r.service.resumeTask r.world).1.agent.lookedAt = _
    unfold Service.resumeTask
    split <;> exact ⟨rfl, rfl⟩
  | watch => exact beside rfl
  | beat => exact beside rfl
  | finish =>
    rw [act]
    split <;> exact ⟨rfl, rfl⟩

/-- **Every prompt move** leaves the loop on time. -/
theorem act_onTime {r : Run} (h : r.service.Waiting) (hr : r.service.OnTime r.world.clock)
    {m : Move} (hm : ∀ ms files, m = .pass ms files → r.service.OnTime (r.world.clock + ms)) :
    (r.act m).service.OnTime (r.act m).world.clock := by
  by_cases hpass : ∃ ms files, m = .pass ms files
  · obtain ⟨ms, files, rfl⟩ := hpass
    exact hm ms files rfl
  rw [act_clock h fun ms files he => hpass ⟨ms, files, he⟩]
  by_cases hs : ∃ signal, m = .hear signal
  · -- a signal that is heard sets the timer anew
    obtain ⟨signal, rfl⟩ := hs
    rw [act]
    split
    · intro _ _
      rw [hear_lookedAt]
      exact Nat.le_add_right ..
    · exact hr
  have hquiet : ∀ signal, m ≠ .hear signal := fun signal he => hs ⟨signal, he⟩
  cases hb : r.service.begun with
  | false =>
    -- nothing is asked for before the loop begins
    intro hc
    rw [act_closing h hquiet, h.fresh hb] at hc
    exact absurd rfl hc
  | true =>
    obtain ⟨hl, hlook⟩ := act_unlooked h hb hquiet
    unfold Service.OnTime
    rw [act_closing h hquiet, hl, hlook]
    exact hr

/-- **Along a prompt run** the loop is on time. -/
theorem goOn_onTime {r : Run} (h : r.service.Waiting) (hr : r.service.OnTime r.world.clock)
    {moves : List Move} (hp : r.Prompt moves) :
    (r.goOn moves).service.OnTime (r.goOn moves).world.clock := by
  induction moves generalizing r with
  | nil => exact hr
  | cons m moves ih => exact ih (act_waiting h m) (act_onTime h hr hp.1) hp.2

end Run

/-! ## The machine and the timer -/

/-- The timer runs out only after that time. -/
def Service.Woken (s : Service) (time : Nat) : Prop :=
  s.agent.closing ≠ none → s.agent.left = false → time < s.agent.lookedAt + Agent.pollMs

namespace Service

/-- A look sets the timer anew. -/
theorem woken_of_lookedAt {s : Service} {time : Nat} (h : s.agent.lookedAt = time) :
    s.Woken time := by
  intro _ _
  have hpos : 0 < Agent.pollMs := by decide
  omega

theorem turnLoop_woken (n : Nat) {s : Service} {w : World} (h : s.Woken w.clock) :
    (turnLoop n s w).1.Woken w.clock := by
  induction n generalizing s w with
  | zero => exact h
  | succ n ih =>
    rw [turnLoop]
    split
    · exact h
    · split
      · exact h
      · rename_i signal s' _
        obtain ⟨hlook, hclock⟩ := Agent.step_clock s'.setup signal s'.agent w
        have hnext := ih (s := { s' with agent := (s'.agent.step s'.setup signal w).1 })
          (w := (s'.agent.step s'.setup signal w).2) (woken_of_lookedAt (hlook.trans hclock.symm))
        rw [hclock] at hnext
        exact hnext

/-- A timer that has run out is heard, if nothing else is. -/
theorem nextSignal_ne_none {s : Service} {w : World} (hc : s.agent.closing ≠ none)
    (hout : s.agent.lookedAt + Agent.pollMs ≤ w.clock) : s.nextSignal w ≠ none := by
  have htick : (s.agent.closing.isSome && decide (s.agent.lookedAt + Agent.pollMs ≤ w.clock)) =
      true := by
    rw [Bool.and_eq_true, decide_eq_true_eq]
    exact ⟨Option.isSome_iff_ne_none.2 hc, hout⟩
  unfold nextSignal
  split
  · exact nofun
  · split
    · exact nofun
    · -- with nothing on its way and someone left, it is the timer
      split
      · exact nofun
      · exact nofun

/-- A loop that is turned at least once has no timer left that has run out. -/
theorem turnLoop_succ_woken (n : Nat) (s : Service) (w : World) :
    (turnLoop (n + 1) s w).1.Woken w.clock := by
  rw [turnLoop]
  split
  · rename_i hl
    intro _ hstays
    exact absurd (hl.symm.trans hstays) (by decide)
  · split
    · rename_i hn
      intro hc _
      exact Nat.lt_of_not_le fun hout => nextSignal_ne_none hc hout hn
    · rename_i signal s' _
      obtain ⟨hlook, hclock⟩ := Agent.step_clock s'.setup signal s'.agent w
      have hnext := turnLoop_woken n
        (s := { s' with agent := (s'.agent.step s'.setup signal w).1 })
        (w := (s'.agent.step s'.setup signal w).2) (woken_of_lookedAt (hlook.trans hclock.symm))
      rw [hclock] at hnext
      exact hnext

theorem resumeTask_clock (s : Service) (w : World) : (s.resumeTask w).2.clock = w.clock := by
  unfold resumeTask
  split
  · rfl
  · exact TaskRun.resume_clock ..

theorem beginLoop_clock (s : Service) (w : World) : (s.beginLoop w).2.clock = w.clock := by
  unfold beginLoop
  split
  · rfl
  · exact (Agent.look_clock ..).2.trans (Run.greet_clock s w)

theorem runLoop_woken (s : Service) (w : World) : (s.runLoop w).1.Woken w.clock := by
  have hclock := (resumeTask_clock (s.beginLoop w).1 (s.beginLoop w).2).trans (beginLoop_clock s w)
  unfold runLoop
  dsimp only
  generalize (s.beginLoop w).1.resumeTask (s.beginLoop w).2 = x at hclock
  have hturns := turnLoop_succ_woken (4 * (x.1.inbox.length + x.1.agent.queue.length) + 4) x.1 x.2
  rw [hclock] at hturns
  change (turnLoop x.1.turns x.1 x.2).1.Woken w.clock at hturns
  split
  · rename_i hl
    intro _ hstays
    exact absurd (hl.symm.trans hstays) (by decide)
  · exact hturns

theorem sooner_le (s : Option Nat) (t : Nat) : ∃ u, sooner s (some t) = some u ∧ u ≤ t := by
  cases s with
  | none => exact ⟨t, rfl, Nat.le_refl t⟩
  | some s => exact ⟨min s t, rfl, Nat.min_le_right s t⟩

/-- The machine goes on before the timer runs out. -/
theorem due_le {s : Service} (h : s.Waiting) {w : World} (hc : s.agent.closing ≠ none)
    (hl : s.agent.left = false) (hclock : w.clock ≤ s.agent.lookedAt + Agent.pollMs) :
    ∃ t, s.due w = some t ∧ t ≤ s.agent.lookedAt + Agent.pollMs := by
  have he : s.ended = false := by
    cases hend : s.ended with
    | false => rfl
    | true => exact absurd ((h.atEnd hend).1.symm.trans hl) (by decide)
  have hloop : ∃ t, s.loopDue w = some t ∧ t ≤ s.agent.lookedAt + Agent.pollMs := by
    unfold loopDue
    rw [hl, if_neg Bool.false_ne_true]
    split
    · exact ⟨w.clock, rfl, hclock⟩
    · rw [Option.isSome_iff_ne_none.2 hc, if_pos rfl]
      exact sooner_le ..
  obtain ⟨t, ht, hle⟩ := hloop
  obtain ⟨u, hu, hut⟩ := sooner_le (s.watcher.bind (·.due w)) t
  obtain ⟨v, hv, hvu⟩ := sooner_le (s.heartbeat.bind (·.due w)) u
  refine ⟨v, ?_, by omega⟩
  rw [due, he, if_neg Bool.false_ne_true, ht, hu, hv]

/-- **Time that passes** to where something is due next does not pass beyond the timer. -/
theorem onTime_of_due {s : Service} (h : s.Waiting) {w : World} (hwoken : s.Woken w.clock)
    {time : Nat} (htime : ∀ t, s.due w = some t → time ≤ max t (w.clock + 1)) :
    s.OnTime time := by
  intro hc hl
  have hlater := hwoken hc hl
  obtain ⟨t, ht, hle⟩ := due_le h hc hl (Nat.le_of_lt hlater)
  have hnext := htime t ht
  omega

end Service

end DownloadTriage
