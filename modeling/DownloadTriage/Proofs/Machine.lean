import DownloadTriage.Proofs.Timer

/-!
# The machine is a run

The agent as a machine does what is due in a fixed order: heartbeats, watcher, loop. Each of its
turns is made of moves, so what holds along every run holds of the machine, however far time
advances. It never lets time pass beyond the loop's timer.

* `Run.run_moves`: one turn of the machine, after which the loop's timer has not run out.
* `Run.advance_moves`: the machine over time, which makes prompt moves.
-/

namespace DownloadTriage

/-- The move takes no time and does not end all. -/
def Move.AtOnce : Move → Prop
  | .pass _ _ => False
  | .finish => False
  | _ => True

theorem Move.AtOnce.ne_pass {m : Move} (h : m.AtOnce) (ms : Nat) (files : FileTree) :
    m ≠ .pass ms files := by
  rintro rfl
  exact h

namespace Run

/-- Such moves lead to that agent and that world. -/
def Leads (r : Run) (x : Service × World) : Prop :=
  ∃ moves, (∀ m ∈ moves, m.AtOnce) ∧ (r.goOn moves).service = x.1 ∧ (r.goOn moves).world = x.2

namespace Leads

variable {r : Run} {x y : Service × World}

theorem refl (r : Run) : r.Leads (r.service, r.world) := ⟨[], by simp, rfl, rfl⟩

theorem one (r : Run) {m : Move} (hm : m.AtOnce) :
    r.Leads ((r.act m).service, (r.act m).world) := ⟨[m], by simpa using hm, rfl, rfl⟩

/-- Further moves, whatever the ledger says by then. -/
theorem trans (hw : r.service.Waiting) (h : r.Leads x)
    (h' : ∀ k, x.1.Waiting → Leads ⟨x.1, x.2, k⟩ y) : r.Leads y := by
  obtain ⟨moves, hm, hs, hx⟩ := h
  obtain ⟨more, hm', hs', hy⟩ := h' (r.goOn moves).ledger (hs ▸ goOn_waiting hw moves)
  refine ⟨moves ++ more, List.forall_mem_append.2 ⟨hm, hm'⟩, ?_⟩
  rw [← hs, ← hx] at hs' hy
  rw [goOn_append]
  exact ⟨hs', hy⟩

theorem going (h : r.Leads x) (hw : r.service.Waiting) (he : r.service.ended = false) :
    x.1.ended = false := by
  obtain ⟨moves, hm, hs, -⟩ := h
  rw [← hs]
  clear hs
  induction moves generalizing r with
  | nil => exact he
  | cons m moves ih =>
    obtain ⟨hm, hmoves⟩ := List.forall_mem_cons.1 hm
    exact ih (act_waiting hw m) (act_going hw he (by rintro rfl; exact hm)) hmoves

theorem clock (h : r.Leads x) (hw : r.service.Waiting) : x.2.clock = r.world.clock := by
  obtain ⟨moves, hm, -, hx⟩ := h
  rw [← hx]
  clear hx
  induction moves generalizing r with
  | nil => rfl
  | cons m moves ih =>
    obtain ⟨hm, hmoves⟩ := List.forall_mem_cons.1 hm
    exact (ih (act_waiting hw m) hmoves).trans (act_clock hw hm.ne_pass)

end Leads

/-! ## Heartbeats and watcher -/

theorem heartbeat_moves (r : Run) : r.Leads (r.service.runHeartbeat r.world) := by
  obtain ⟨⟨setup, agent, heartbeat, watcher, inbox, handle, replies, begun, ended⟩, w, k⟩ := r
  cases heartbeat with
  | none => exact .refl _
  | some h => exact ⟨[.beat, .beat], by simp [Move.AtOnce], rfl, rfl⟩

theorem watcher_moves (r : Run) : r.Leads (r.service.runWatcher r.world) := 
  .one r (m := .watch) trivial

/-! ## The loop -/

end Run

namespace Service

/-- What the machine hears next has come. -/
theorem nextSignal_hears {s s' : Service} {w : World} {signal : Signal}
    (h : s.nextSignal w = some (signal, s')) : s.Hears w signal ∧ s' = s.taken signal := by
  unfold nextSignal at h
  split at h
  · rename_i hr
    cases h
    exact ⟨hr, rfl⟩
  · split at h
    · rename_i c cs hi
      cases h
      exact ⟨by simp [Hears, hi], by simp [taken, hi]⟩
    · rename_i hi
      split at h
      · rename_i ho
        cases h
        have ho' : ((s.handle = false ∧ s.watcher.isNone = true) ∧ s.agent.tickets.isEmpty = true) ∧
            s.agent.orphaned = false := by simpa [isOrphaned] using ho
        exact ⟨⟨hi, ho'.1.1.1, ho'.1.1.2, ho'.2⟩, rfl⟩
      · split at h
        · rename_i ht
          cases h
          have ht' : s.agent.closing.isSome = true ∧ s.agent.lookedAt + Agent.pollMs ≤ w.clock := by
            simpa using ht
          exact ⟨ht', rfl⟩
        · cases h

/-- Agent and world after the loop, which lets go of the task under way if it is left. -/
def settled (x : Service × World) : Service × World :=
  if x.1.agent.left then x.1.letGo x.2 else x

theorem turnLoop_left (n : Nat) {s : Service} (w : World) (h : s.agent.left = true) :
    turnLoop n s w = (s, w) := by
  cases n with
  | zero => rfl
  | succ n => rw [turnLoop, if_pos h]

end Service

namespace Run

theorem turnLoop_moves (n : Nat) (r : Run) (hb : r.service.begun = true)
    (hl : r.service.agent.left = false) :
    r.Leads (Service.settled (Service.turnLoop n r.service r.world)) := by
  -- induction on the turns that may still be made
  induction n generalizing r with
  | zero =>
    rw [Service.turnLoop, Service.settled, if_neg (by rw [hl]; exact Bool.false_ne_true)]
    exact .refl r
  | succ n ih =>
    rw [Service.turnLoop, if_neg (by rw [hl]; exact Bool.false_ne_true)]
    cases hn : r.service.nextSignal r.world with
    | none =>
      rw [Service.settled, if_neg (by rw [hl]; exact Bool.false_ne_true)]
      exact .refl r
    | some x =>
      obtain ⟨signal, s⟩ := x
      obtain ⟨hs, rfl⟩ := Service.nextSignal_hears hn
      have hact : r.act (.hear signal) = r.hear signal := if_pos ⟨hb, hl, hs⟩
      have heq := r.hear_eq signal
      dsimp only at heq ⊢
      rw [Service.taken_setup] at heq
      rw [Service.taken_agent, Service.taken_setup]
      -- the turn in which the loop is left is the last one
      by_cases hx : (r.service.agent.step r.service.setup signal r.world).1.left = true
      · rw [Service.turnLoop_left n _ hx, Service.settled, if_pos hx]
        rw [if_pos hx] at heq
        refine ⟨[.hear signal], List.forall_mem_singleton.2 trivial, ?_, ?_⟩
        · exact (congrArg Run.service hact).trans (congrArg Prod.fst heq)
        · exact (congrArg Run.world hact).trans (congrArg Prod.snd heq)
      · rw [if_neg hx] at heq
        have hs' := congrArg Prod.fst heq
        have hw' := congrArg Prod.snd heq
        dsimp only at hs' hw'
        obtain ⟨moves, hm, hms, hmw⟩ := ih (r.hear signal)
          (by rw [hs']; exact (r.service.taken_rest signal).1.trans hb)
          (by rw [hs']; simpa using hx)
        rw [hs', hw'] at hms hmw
        refine ⟨.hear signal :: moves, List.forall_mem_cons.2 ⟨trivial, hm⟩, ?_, ?_⟩
        · show ((r.act (.hear signal)).goOn moves).service = _
          rw [hact, hms]
        · show ((r.act (.hear signal)).goOn moves).world = _
          rw [hact, hmw]

theorem beginLoop_waits {r : Run} (hw : r.service.Waiting) (hl : r.service.agent.left = false) :
    (r.service.beginLoop r.world).1.begun = true ∧
      (r.service.beginLoop r.world).1.agent.left = false := by
  cases hb : r.service.begun with
  | true =>
    rw [Service.beginLoop, if_pos hb]
    exact ⟨hb, hl⟩
  | false =>
    have he : (r.service.beginLoop r.world).1 = _ := congrArg Run.service (begin_eq hw hb)
    rw [he]
    exact ⟨rfl, rfl⟩

theorem resumeTask_waits (s : Service) (w : World) :
    (s.resumeTask w).1.begun = s.begun ∧ (s.resumeTask w).1.agent.left = s.agent.left := by
  unfold Service.resumeTask
  cases s.agent.running <;> exact ⟨rfl, rfl⟩

/-- The loop of the machine. -/
theorem runLoop_moves (r : Run) (hw : r.service.Waiting) (hl : r.service.agent.left = false) :
    r.Leads (r.service.runLoop r.world) := by
  have hbegin : r.Leads (r.service.beginLoop r.world) := .one r (m := .begin) trivial
  obtain ⟨hb, hl'⟩ := beginLoop_waits hw hl
  unfold Service.runLoop
  generalize r.service.beginLoop r.world = x at hbegin hb hl'
  refine hbegin.trans hw fun k hx => ?_
  obtain ⟨hb', hl''⟩ := resumeTask_waits x.1 x.2
  have hresume : Leads ⟨x.1, x.2, k⟩ (x.1.resumeTask x.2) :=
    .one _ (m := .resume) trivial
  dsimp only
  generalize x.1.resumeTask x.2 = y at hresume hb' hl''
  refine hresume.trans hx fun k hy => ?_
  have hturn := turnLoop_moves y.1.turns ⟨y.1, y.2, k⟩ (hb'.trans hb) (hl''.trans hl')
  dsimp only at hturn ⊢
  generalize Service.turnLoop y.1.turns y.1 y.2 = z at hturn
  unfold Service.settled at hturn
  split
  · rename_i hz
    rw [if_pos hz] at hturn
    exact hturn.trans hy fun k _ => heartbeat_moves ⟨_, _, k⟩
  · rename_i hz
    rw [if_neg hz] at hturn
    exact hturn

/-! ## The machine -/

/-- **One turn of the machine** is made of moves and takes no time, and after it the loop's timer
has not run out. -/
theorem run_moves (r : Run) (hw : r.service.Waiting) :
    ∃ moves, (∀ m ∈ moves, ∀ ms files, m ≠ .pass ms files) ∧
      (r.goOn moves).service = (r.service.run r.world).1 ∧
      (r.goOn moves).world = (r.service.run r.world).2 ∧
      (r.goOn moves).world.clock = r.world.clock ∧
      (r.service.run r.world).1.Woken r.world.clock := by
  have left_woken : ∀ s : Service, s.agent.left = true → s.Woken r.world.clock := by
    intro s hl _ hstays
    exact absurd (hl.symm.trans hstays) (by decide)
  unfold Service.run
  cases he : r.service.ended with
  | true => exact ⟨[], nofun, rfl, rfl, rfl, left_woken r.service (hw.atEnd he).1⟩
  | false =>
    rw [if_neg Bool.false_ne_true]
    have hbeat := heartbeat_moves r
    generalize r.service.runHeartbeat r.world = x at hbeat
    have hwatch : r.Leads (x.1.runWatcher x.2) :=
      hbeat.trans hw fun k _ => watcher_moves ⟨x.1, x.2, k⟩
    dsimp only
    generalize x.1.runWatcher x.2 = y at hwatch
    have hloop : r.Leads (if y.1.agent.left then (y.1, y.2) else y.1.runLoop y.2) := by
      refine hwatch.trans hw fun k hy => ?_
      split
      · exact .refl _
      · rename_i hl
        exact runLoop_moves ⟨y.1, y.2, k⟩ hy (by simpa using hl)
    -- heartbeats and watcher take no time, so the loop is turned at that very time
    have hwoken : (if y.1.agent.left then (y.1, y.2) else y.1.runLoop y.2).1.Woken
        r.world.clock := by
      have hclock := hwatch.clock hw
      split
      · rename_i hl
        exact left_woken y.1 hl
      · rw [← hclock]
        exact Service.runLoop_woken y.1 y.2
    generalize (if y.1.agent.left then (y.1, y.2) else y.1.runLoop y.2) = z at hloop hwoken
    have hz := hloop.going hw he
    have hclock := hloop.clock hw
    obtain ⟨moves, hinstant, hs, hworld⟩ := hloop
    have hmoves : ∀ m ∈ moves, ∀ ms files, m ≠ .pass ms files :=
      fun m hm => (hinstant m hm).ne_pass
    split
    · rename_i hf
      have hact : (r.goOn moves).act .finish =
          ⟨((r.goOn moves).service.finish (r.goOn moves).world).1,
            ((r.goOn moves).service.finish (r.goOn moves).world).2, (r.goOn moves).ledger⟩ :=
        if_pos (by rw [hs]; exact ⟨hf.1, hf.2, hz⟩)
      refine ⟨moves ++ [.finish], ?_, ?_⟩
      · exact List.forall_mem_append.2 ⟨hmoves, List.forall_mem_singleton.2 nofun⟩
      · rw [goOn_append, show (r.goOn moves).goOn [.finish] = _ from hact, hs, hworld]
        exact ⟨rfl, rfl, (finish_clock ..).trans hclock, left_woken _ hf.1⟩
    · exact ⟨moves, hmoves, hs, hworld, (congrArg World.clock hworld).trans hclock, hwoken⟩

/-- Time passes up to then, and nothing else happens. -/
theorem act_until (r : Run) {time : Nat} (h : r.world.clock ≤ time) :
    r.act (.pass (time - r.world.clock) r.world.files) =
      ⟨r.service, { r.world with clock := time }, r.ledger⟩ := by
  rw [act, Nat.add_sub_cancel' h]

/-- **The machine over time** is made of moves: it does what is due, time passes until something
is due again, and so on. Where the loop is on time at first, the moves are prompt. -/
theorem advance_moves (r : Run) (hw : r.service.Waiting) {now target : Nat}
    (hnow : r.world.clock ≤ now) (htarget : now ≤ target) :
    ∃ moves, (r.service.OnTime now → r.Prompt moves) ∧
      (r.goOn moves).service = (Service.machine.advance now target r.service r.world).1 ∧
      (r.goOn moves).world = (Service.machine.advance now target r.service r.world).2 ∧
      (r.goOn moves).world.clock = target := by
  -- induction on the time that is left, which gets shorter with every turn
  induction hleft : target - now using Nat.strongRecOn generalizing r now with
  | ind left ih =>
    obtain ⟨moves, hinstant, hs, hworld, hclock, hwoken⟩ :=
      run_moves ⟨r.service, { r.world with clock := now }, r.ledger⟩ hw
    have hturn : r.goOn (.pass (now - r.world.clock) r.world.files :: moves) =
        goOn ⟨r.service, { r.world with clock := now }, r.ledger⟩ moves :=
      congrArg (goOn · moves) (r.act_until hnow)
    have hprompt : r.service.OnTime now →
        r.Prompt (.pass (now - r.world.clock) r.world.files :: moves) := by
      intro hr
      refine ⟨?_, prompt_of_instant _ hinstant⟩
      rintro ms files ⟨⟩
      rw [Nat.add_sub_cancel' hnow]
      exact hr
    dsimp only at hs hworld hclock hwoken
    rw [← hs] at hwoken
    rw [← hturn] at hs hworld hclock hwoken
    generalize hfirst : Move.pass (now - r.world.clock) r.world.files :: moves = first at *
    have hwaiting := goOn_waiting hw first
    have hrest : ∃ more, (r.goOn first).Prompt more ∧
        ((r.goOn first).goOn more).service =
          (Service.machine.advance now target r.service r.world).1 ∧
        ((r.goOn first).goOn more).world =
          (Service.machine.advance now target r.service r.world).2 ∧
        ((r.goOn first).goOn more).world.clock = target := by
      have hlast : (r.goOn first).goOn
          [.pass (target - (r.goOn first).world.clock) (r.goOn first).world.files] =
          ⟨(r.goOn first).service, { (r.goOn first).world with clock := target },
            (r.goOn first).ledger⟩ :=
        act_until _ (by rw [hclock]; exact htarget)
      -- what is due at the target is left for what comes after
      have hwait : (∀ t, (r.goOn first).service.due (r.goOn first).world = some t →
          target ≤ max t (now + 1)) → (r.goOn first).Prompt
            [.pass (target - (r.goOn first).world.clock) (r.goOn first).world.files] := by
        intro hdue
        refine ⟨?_, trivial⟩
        rintro ms files ⟨⟩
        rw [Nat.add_sub_cancel' (by omega)]
        exact Service.onTime_of_due hwaiting (hclock ▸ hwoken) (by rw [hclock]; exact hdue)
      rw [Machine.advance]
      dsimp only [Service.machine]
      rw [← hs, ← hworld]
      split
      · rename_i hnone
        refine ⟨_, hwait fun u hu => ?_, by rw [hlast], by rw [hlast], by rw [hlast]⟩
        rw [hnone] at hu
        cases hu
      · rename_i t ht
        split
        · rename_i hnext
          have hlater : (r.goOn first).world.clock ≤ max t (now + 1) := by omega
          have hless : target - max t (now + 1) < left := by omega
          obtain ⟨more, hp, hrest⟩ := ih _ hless (r.goOn first) hwaiting hlater (by omega) rfl
          refine ⟨more, hp ?_, hrest⟩
          refine Service.onTime_of_due hwaiting (hclock ▸ hwoken) fun u hu => ?_
          rw [ht] at hu
          obtain rfl := Option.some.inj hu
          exact Nat.le_of_eq (by rw [hclock])
        · rename_i hnext
          refine ⟨_, hwait fun u hu => ?_, by rw [hlast], by rw [hlast], by rw [hlast]⟩
          rw [ht] at hu
          obtain rfl := Option.some.inj hu
          omega
    obtain ⟨more, hp, hs', hworld', hclock'⟩ := hrest
    refine ⟨first ++ more, fun hr => ?_, ?_⟩
    · exact (prompt_append ..).2 ⟨hprompt hr, hp⟩
    · rw [goOn_append]
      exact ⟨hs', hworld', hclock'⟩

end Run

end DownloadTriage
