import DownloadTriage.Proofs.Pulse

/-!
# When hearts beat

Until a stop is signalled a heartbeat loop goes on, however its heartbeats end. The first interval
begins a period after the startup was over, if time waits for what is due.

* `Steady.going_play`, `Steady.brings`: as many heartbeats as one likes.
* `Punctual.play`: the first interval, along a prompt run.
-/

namespace DownloadTriage

variable {c : Client} {period n : Nat} {p : Pulse} {l : Heartbeat.Leg} {b : Beat}

theorem Heartbeat.Underway.exists_due {h : Heartbeat} (hu : h.Underway) {beat : Fiber Bool}
    (hb : h.Beats beat) : ∃ t, beat.due = some t := by
  unfold Underway at hu
  rcases hb with hph | ⟨tick, hph⟩
  · rw [hph] at hu
    exact hu
  · rw [hph] at hu
    exact hu

/-! ## Without a stop -/

namespace Pulse

/-- Nobody has asked the loop to stop, and it has not. -/
def Going (p : Pulse) : Prop := p.loop.stopRequested = false ∧ p.loop.isStopped = false

theorem turn_stopRequested (p : Pulse) : p.turn.loop.stopRequested = p.loop.stopRequested := by
  rw [p.turn_loop.1, Heartbeat.step_stopRequested]

/-- Without a stop it does not matter what the loop looks for first. -/
theorem act_tick (hs : p.loop.stopRequested = false) :
    p.act .tick = if p.turn.early then p.turn.turn else p.turn := by
  have hflag : p.flag false = p := by rw [← hs]; rfl
  have hturn : p.turn.flag p.loop.stopRequested = p.turn := by rw [← turn_stopRequested]; rfl
  rw [act, hflag, hturn]

end Pulse

namespace Steady

/-- With a heartbeat to carry on and no stop, the loop is not stopped after a step. -/
theorem going_turn (hp : 0 < period) (h : Steady c period p) (hg : p.Going) : p.turn.Going := by
  refine ⟨p.turn_stopRequested.trans hg.1, ?_⟩
  cases hl : p.loop.leg p.world with
  | none =>
    rcases Pulse.turn_idle hl with he | ⟨hstop, -⟩
    · rw [he]
      exact hg.2
    · rw [hg.1] at hstop
      cases hstop
  | some l =>
    obtain ⟨b, hb⟩ := h.carried hl
    rcases hr : l.result with ⟨f, w⟩
    cases f with
    | finished a =>
      have hpos : 0 < p.loop.periodMs := h.periodMs.symm ▸ hp
      rw [Pulse.turn_finished hl hr, Heartbeat.await_eq hpos, if_neg (by rw [hg.1]; decide)]
      rfl
    | waiting wake r next =>
      rw [Pulse.turn_unfinished hl hr]
      rcases hb.kind with ⟨-, hu, -⟩ | ⟨-, tick, hu, -⟩
      · rw [hu]
        rfl
      · rw [hu]
        rfl

theorem going_act (hp : 0 < period) (h : Steady c period p) (hg : p.Going) {m : Pulse.Move}
    (hm : m ≠ .stop) : (p.act m).Going := by
  cases m with
  | pass w =>
    rw [Pulse.act]
    split
    · exact hg
    · exact hg
  | stop => exact absurd rfl hm
  | turn => exact h.going_turn hp hg
  | tick =>
    have hturn := h.going_turn hp hg
    rw [Pulse.act_tick hg.1]
    split
    · exact (h.turn hp).going_turn hp hturn
    · exact hturn

/-- **Until a stop is signalled** the loop goes on. -/
theorem going_play (hp : 0 < period) (h : Steady c period p) (hg : p.Going) {moves : List Pulse.Move}
    (hm : Pulse.Move.stop ∉ moves) : (p.play moves).Going := by
  induction moves generalizing p with
  | nil => exact hg
  | cons m moves ih =>
    rw [List.mem_cons, not_or] at hm
    exact ih (h.act hp m) (h.going_act hp hg (Ne.symm hm.1)) hm.2

/-- A loop that goes on has a time at which it does. -/
theorem exists_due (h : Steady c period p) (hg : p.Going) : ∃ t, p.loop.due p.world = some t := by
  obtain ⟨⟨client, period', phase, stop⟩, w, past, current⟩ := p
  obtain ⟨hstop, hgoing⟩ := hg
  obtain rfl : stop = false := hstop
  have hunder := h.underway
  cases phase with
  | fresh => exact ⟨w.clock, rfl⟩
  | starting beat => exact hunder
  | beating beat tick => exact hunder
  | waiting tick => exact ⟨tick, rfl⟩
  | broken => exact h.fits.elim
  | stopped => cases hgoing

/-- A loop that goes on has a heartbeat to carry on when it is due. -/
theorem exists_leg (h : Steady c period p) (hg : p.Going) (hd : p.loop.Due p.world) :
    ∃ l, p.loop.leg p.world = some l := by
  obtain ⟨⟨client, period', phase, stop⟩, w, past, current⟩ := p
  obtain ⟨hstop, hgoing⟩ := hg
  obtain rfl : stop = false := hstop
  cases phase with
  | fresh => exact ⟨_, rfl⟩
  | starting beat => exact ⟨_, rfl⟩
  | beating beat tick => exact ⟨_, rfl⟩
  | waiting tick => exact ⟨_, if_pos ⟨rfl, hd tick rfl⟩⟩
  | broken => exact h.fits.elim
  | stopped => cases hgoing

theorem Carried.length_begun (hb : Carried c period p l b) (hl : p.loop.leg p.world = some l) :
    p.turn.begun.length = p.past.length + 1 := by
  rw [Pulse.turn_begun hl hb.eq, List.length_append, List.length_map]
  rfl

/-- **A heartbeat begins** when a loop that waits goes on. -/
theorem length_turn_begun (h : Steady c period p) (hg : p.Going) (hd : p.loop.Due p.world)
    (hc : p.current = none) : p.turn.begun.length = p.begun.length + 1 := by
  obtain ⟨l, hl⟩ := h.exists_leg hg hd
  obtain ⟨b, hb⟩ := h.carried hl
  rw [hb.length_begun hl, p.length_begun, hc]
  rfl

end Steady

/-- **More heartbeats come**: at least so many, if the loop takes a step whenever one is due, whatever
happens in between. -/
inductive Pulse.Brings (n : Nat) : Pulse → Prop where
  | there {p : Pulse} (h : n ≤ p.begun.length) : Brings n p
  | turn {p : Pulse} (next : ∀ w : World, p.world.clock ≤ w.clock → p.loop.Due w →
      Brings n ({ p with world := w } : Pulse).turn) : Brings n p

namespace Steady

/-- The loop knows of the heartbeat under way. -/
theorem exists_beats (h : Steady c period p) (hc : p.current ≠ none) :
    ∃ beat, p.loop.Beats beat := by
  have hf := h.fits
  unfold Pulse.Fits at hf
  split at hf
  · exact absurd hf.2 hc
  · exact ⟨_, .inl ‹_›⟩
  · exact ⟨_, .inr ⟨_, ‹_›⟩⟩
  · exact absurd hf.2.1 hc
  · exact hf.elim
  · exact absurd hf hc

theorem carries (h : Steady c period p) {beat : Fiber Bool} (hb : p.loop.Beats beat) :
    p.Carries c beat := by
  have hf := h.fits
  unfold Pulse.Fits at hf
  rcases hb with hph | ⟨tick, hph⟩
  · rw [hph] at hf
    exact hf.2
  · rw [hph] at hf
    exact hf.2

theorem length_of_beats (h : Steady c period p) {beat : Fiber Bool} (hb : p.loop.Beats beat) :
    p.begun.length = p.past.length + 1 := by
  obtain ⟨b, hc, -⟩ := h.carries hb
  rw [p.length_begun, hc]
  rfl

/-- The heartbeat under way comes to its end, and those come that come after it. -/
theorem brings_of_beats (hp : 0 < period) {beat : Fiber Bool} (he : beat.Ends)
    (h : Steady c period p) (hg : p.Going) (hbeat : p.loop.Beats beat)
    (hafter : ∀ q : Pulse, Steady c period q → q.Going → q.current = none →
      q.begun.length = p.begun.length → q.Brings n) : p.Brings n := by
  -- induction on the fiber: what is resumed when it is due comes nearer to its end
  induction he generalizing p with
  | finished a =>
    obtain ⟨t, ht⟩ := h.underway.exists_due hbeat
    cases ht
  | @waiting wake rq next _ ih =>
    refine .turn fun w hw hd => ?_
    have hq := h.pass hw
    have hgq : Pulse.Going { p with world := w } := hg
    have hlater := hq.turn hp
    have hglater := hq.going_turn hp hgq
    obtain ⟨l, hl, hresult, -, hbeats⟩ := Heartbeat.leg_of_beats hbeat w
    obtain ⟨b, hb⟩ := hq.carried hl
    have hlen : ({ p with world := w } : Pulse).turn.begun.length = p.begun.length :=
      (hb.length_begun hl).trans (h.length_of_beats hbeat).symm
    have hwake : wake ≤ w.clock := hd wake (Heartbeat.due_of_beats hbeat w)
    rcases hr : (Fiber.waiting wake rq next).resume w with ⟨f, v⟩
    have hnext := ih w hwake (p := ({ p with world := w } : Pulse).turn) hlater hglater
    rw [hr] at hnext hresult
    cases f with
    | finished a =>
      refine hafter _ hlater hglater ?_ hlen
      rw [Pulse.turn_finished hl hresult]
    | waiting wake' rq' next' =>
      refine hnext ?_ fun q hq hgq hc hqlen => hafter q hq hgq hc (hqlen.trans hlen)
      rw [Pulse.turn_unfinished hl hresult]
      exact (hbeats _).1

/-- **As many heartbeats as one likes**: none of them ends the loop. -/
theorem brings (hp : 0 < period) (h : Steady c period p) (hg : p.Going) (n : Nat) : p.Brings n := by
  -- induction on the number of heartbeats that are still to begin
  induction hk : n - p.begun.length generalizing p with
  | zero => exact .there (by omega)
  | succ k ih =>
    have hwaits : ∀ q : Pulse, Steady c period q → q.Going → q.current = none →
        q.begun.length = p.begun.length → q.Brings n := by
      intro q hq hgq hc hlen
      refine .turn fun w hw hd => ?_
      have hlater := hq.pass hw
      have hglater : Pulse.Going { q with world := w } := hgq
      have hmore := hlater.length_turn_begun hglater hd hc
      have hsame : ({ q with world := w } : Pulse).begun = q.begun := rfl
      rw [hsame] at hmore
      exact ih (hlater.turn hp) (hlater.going_turn hp hglater) (by omega)
    cases hc : p.current with
    | none => exact hwaits p h hg hc rfl
    | some b =>
      obtain ⟨beat, hbeat⟩ := h.exists_beats (by rw [hc]; exact Option.some_ne_none b)
      exact brings_of_beats hp beat.ends h hg hbeat hwaits

end Steady

/-! ## The first interval -/

namespace Pulse

/-- Time passes up to where the loop is due, and beyond only after it has taken a step. -/
def Prompt : Pulse → List Move → Prop
  | _, [] => True
  | p, m :: moves =>
    (∀ w, m = .pass w → ∀ t, p.loop.due p.world = some t → w.clock ≤ max t p.world.clock) ∧
      (p.act m).Prompt moves

end Pulse

/-- **The first interval is punctual**: it began a period after the startup was over, and until it
begins time has not passed beyond. -/
structure Punctual (period : Nat) (p : Pulse) : Prop where
  first : ∀ a ∈ p.past.head?, ∀ b ∈ p.begun[1]?, b.began = a.ended + period
  waits : ∀ a tick, p.past = [a] → p.loop.phase = .waiting tick → p.world.clock ≤ tick

namespace Pulse

/-- Heartbeats that are over stay so. -/
theorem past_turn (p : Pulse) : p.past <+: p.turn.past := by
  unfold turn
  dsimp only
  split
  · exact List.prefix_rfl
  · split
    · exact List.prefix_append ..
    · exact List.prefix_rfl

end Pulse

namespace Steady

/-- The first tick is a period after the startup was over. -/
theorem tick_eq (h : Steady c period p) {a : PastBeat} {tick : Nat} (ha : p.past = [a])
    (hph : p.loop.phase = .waiting tick) : tick = a.ended + period := by
  have hf := h.fits
  unfold Pulse.Fits at hf
  rw [hph] at hf
  exact hf.2.2 a ha

/-- Between two heartbeats the loop waits for a tick. -/
theorem exists_tick (h : Steady c period p) (ho : p.loop.isOver = false)
    (hc : p.current = none) (hn : p.past ≠ []) : ∃ tick, p.loop.phase = .waiting tick := by
  have hf := h.fits
  unfold Pulse.Fits at hf
  split at hf
  · exact absurd hf.1 hn
  · exact absurd hf.1 hn
  · obtain ⟨-, b, hb, -⟩ := hf
    rw [hc] at hb
    cases hb
  · exact ⟨_, ‹_›⟩
  · exact hf.elim
  · rename_i hph
    unfold Heartbeat.isOver at ho
    rw [hph] at ho
    cases ho

end Steady

namespace Punctual

theorem begin (c : Client) (period : Nat) (w : World) : Punctual period (.begin c period w) where
  first _ ha := nomatch ha
  waits _ _ ha := nomatch ha

/-- The first interval, where a step carries it on or leaves it as it was. -/
theorem first_turn (h : Punctual period p) (hs : Steady c period p)
    (hl : p.loop.leg p.world = some l) :
    ∀ a ∈ p.turn.past.head?, ∀ d ∈ p.turn.begun[1]?, d.began = a.ended + period := by
  obtain ⟨b, hb⟩ := hs.carried hl
  intro a ha d hd
  rw [Pulse.turn_begun hl hb.eq] at hd
  obtain ⟨more, hmore⟩ := p.past_turn
  rw [← hmore] at ha
  cases hpast : p.past with
  | nil =>
    rw [hpast] at hd
    cases hd
  | cons x past =>
    rw [hpast] at ha hd
    obtain rfl : x = a := Option.some.inj ha
    have hfirst := h.first x (by rw [hpast]; rfl) d
    rw [Pulse.begun, hpast] at hfirst
    cases past with
    | nil =>
      obtain rfl : b = d := Option.some.inj hd
      rcases hb.source with ⟨hc, hbegan, -⟩ | ⟨e, hc, rfl⟩
      · -- it begins now, when the tick has come, and time has not passed beyond it
        obtain ⟨tick, hph⟩ := hs.exists_tick (Heartbeat.not_over_of_leg hl) hc (by simp [hpast])
        have hle := h.waits x tick hpast hph
        have hge := hb.next.first x hpast
        rw [hs.tick_eq hpast hph] at hle
        omega
      · refine h.first x (by rw [hpast]; rfl) e ?_
        rw [Pulse.begun, hpast, hc]
        rfl
    | cons y past => exact hfirst hd

theorem turn (hp : 0 < period) (h : Punctual period p) (hs : Steady c period p) :
    Punctual period p.turn := by
  cases hl : p.loop.leg p.world with
  | none =>
    rcases Pulse.turn_idle hl with he | ⟨-, -, lines, he⟩
    · rw [he]
      exact h
    · rw [he]
      exact ⟨h.first, fun a tick _ hph => nomatch hph⟩
  | some l =>
    refine ⟨h.first_turn hs hl, fun a tick ha hph => ?_⟩
    obtain ⟨b, hb⟩ := hs.carried hl
    rw [p.turn_clock]
    rcases hr : l.result with ⟨f, w⟩
    cases f with
    | finished d =>
      -- the tick is set when the startup is over, which is now
      have htick := (hs.turn hp).tick_eq ha hph
      rw [Pulse.turn_finished hl hr, hb.eq] at ha
      obtain ⟨-, rfl⟩ : p.past = [] ∧ b.endAt p.world.clock = a := by
        simpa [List.append_eq_singleton_iff] using ha
      rw [htick]
      exact Nat.le_add_right ..
    | waiting wake r next =>
      rw [Pulse.turn_unfinished hl hr] at hph
      rcases hb.kind with ⟨-, hu, -⟩ | ⟨-, t, hu, -⟩
      · rw [hu] at hph
        cases hph
      · rw [hu] at hph
        cases hph

theorem act (hp : 0 < period) (h : Punctual period p) (hs : Steady c period p) {m : Pulse.Move}
    (hm : ∀ w, m = .pass w → ∀ t, p.loop.due p.world = some t → w.clock ≤ max t p.world.clock) :
    Punctual period (p.act m) := by
  cases m with
  | pass w =>
    rw [Pulse.act]
    split
    · refine ⟨h.first, fun a tick ha hph => ?_⟩
      have hle := h.waits a tick ha hph
      have hdue := hm w rfl
      unfold Heartbeat.due at hdue
      rw [show p.loop.phase = .waiting tick from hph] at hdue
      dsimp only at hdue ⊢
      split at hdue
      · have := hdue _ rfl
        omega
      · have := hdue _ rfl
        omega
    · exact h
  | stop => exact ⟨h.first, h.waits⟩
  | turn => exact h.turn hp hs
  | tick =>
    have hflag : Punctual period (p.flag false) := ⟨h.first, h.waits⟩
    have hturn := hflag.turn hp (hs.flag false)
    have hq : Punctual period ((p.flag false).turn.flag p.loop.stopRequested) :=
      ⟨hturn.first, hturn.waits⟩
    rw [Pulse.act]
    split
    · exact hq.turn hp (((hs.flag false).turn hp).flag _)
    · exact hq

/-- **Along a prompt run** the first interval is punctual. -/
theorem play (hp : 0 < period) (h : Punctual period p) (hs : Steady c period p)
    {moves : List Pulse.Move} (hm : p.Prompt moves) : Punctual period (p.play moves) := by
  induction moves generalizing p with
  | nil => exact h
  | cons m moves ih => exact ih (h.act hp hs hm.1) (hs.act hp m) hm.2

end Punctual

end DownloadTriage
