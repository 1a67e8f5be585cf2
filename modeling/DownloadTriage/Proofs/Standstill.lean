import DownloadTriage.Proofs.Cadence

/-!
# How a heartbeat loop stops

A stop that is signalled while a heartbeat is under way is seen when that is over, and one that is
signalled between two heartbeats at once. Only a tick that has come by then can hide it. What the
heartbeats of a loop come to, from the first to the last, is put together at the end.

* `Pulse.play_of_over`: after the loop has ended.
* `Ebbing.play`, `Waning.play`: after a stop was signalled.
* `Pulse.play_beats`: all of it together.
-/

namespace DownloadTriage

variable {c : Client} {period n : Nat} {p : Pulse}

/-! ## After the loop has ended -/

namespace Pulse

theorem turn_of_over (ho : p.loop.isOver = true) :
    p.turn.loop.isOver = true ∧ p.turn.begun = p.begun := by
  rcases turn_idle (Heartbeat.leg_of_over ho _) with he | ⟨-, -, lines, he⟩
  · rw [he]
    exact ⟨ho, rfl⟩
  · rw [he]
    exact ⟨rfl, rfl⟩

theorem act_of_over (ho : p.loop.isOver = true) (m : Move) :
    (p.act m).loop.isOver = true ∧ (p.act m).begun = p.begun := by
  cases m with
  | pass w =>
    rw [act]
    split <;> exact ⟨ho, rfl⟩
  | stop => exact ⟨ho, rfl⟩
  | turn => exact turn_of_over ho
  | tick =>
    obtain ⟨ho', hsame⟩ := turn_of_over (p := p.flag false) ho
    rw [act]
    split
    · obtain ⟨ho'', hsame'⟩ :=
        turn_of_over (p := (p.flag false).turn.flag p.loop.stopRequested) ho'
      exact ⟨ho'', hsame'.trans hsame⟩
    · exact ⟨ho', hsame⟩

/-- **A loop that has ended** begins no heartbeat. -/
theorem play_of_over (ho : p.loop.isOver = true) (moves : List Move) :
    (p.play moves).begun = p.begun := by
  induction moves generalizing p with
  | nil => rfl
  | cons m moves ih =>
    obtain ⟨ho', hsame⟩ := act_of_over ho m
    exact (ih ho').trans hsame

/-! ## After a stop was signalled -/

/-- A loop that waits sees the stop. -/
theorem turn_of_waiting {tick : Nat} (hph : p.loop.phase = .waiting tick)
    (hs : p.loop.stopRequested = true) :
    p.turn.loop.isOver = true ∧ p.turn.begun = p.begun := by
  have hl : p.loop.leg p.world = none := by
    unfold Heartbeat.leg
    rw [hph]
    exact if_neg (by simp [hs])
  have hstep : (p.loop.step p.world).1.isOver = true := by
    unfold Heartbeat.step
    rw [hph]
    dsimp only
    rw [if_pos hs]
    rfl
  refine ⟨by rw [p.turn_loop.1, hstep], ?_⟩
  rcases turn_idle hl with he | ⟨-, -, lines, he⟩
  · rw [he]
  · rw [he]
    rfl

end Pulse

/-- **A stop that was signalled while a heartbeat is under way**: the loop ends when that is over,
unless the tick after it has come by then. -/
inductive Ebbing (n : Nat) (tickAfter : Nat → Nat) (p : Pulse) : Prop where
  | during {beat : Fiber Bool} (hs : p.loop.stopRequested = true) (hbeat : p.loop.Beats beat)
    (hn : p.past.length = n) (ht : p.loop.tickAfter = tickAfter)
  | ended (ho : p.loop.isOver = true) (hn : p.begun.length = n + 1)
  | late {o : PastBeat} (ho : p.past[n]? = some o) (hl : tickAfter o.ended ≤ o.ended)

namespace Ebbing

variable {tickAfter : Nat → Nat}

theorem turn (hp : 0 < period) (hs : Steady c period p) (h : Ebbing n tickAfter p) :
    Ebbing n tickAfter p.turn := by
  cases h with
  | @during beat hstop hbeat hn ht =>
    obtain ⟨l, hl, -, -, hbeats⟩ := Heartbeat.leg_of_beats hbeat p.world
    obtain ⟨b, hb⟩ := hs.carried hl
    have hlen := hb.length_begun hl
    rcases hr : l.result with ⟨f, w⟩
    cases f with
    | finished a =>
      have hpos : 0 < p.loop.periodMs := hs.periodMs.symm ▸ hp
      refine .ended ?_ (by rw [hlen, hn])
      rw [Pulse.turn_finished hl hr, Heartbeat.await_eq hpos, if_pos hstop]
      rfl
    | waiting wake r next =>
      rw [Pulse.turn_unfinished hl hr]
      exact .during hstop (hbeats _).1 hn ((hbeats _).2.trans ht)
  | ended ho hn =>
    obtain ⟨ho', hsame⟩ := Pulse.turn_of_over ho
    exact .ended ho' (hsame ▸ hn)
  | late ho hl =>
    obtain ⟨more, hmore⟩ := p.past_turn
    refine .late ?_ hl
    rw [← hmore]
    exact (List.getElem?_append_left (List.getElem?_eq_some_iff.1 ho).1).trans ho

theorem tick (hp : 0 < period) (hs : Steady c period p) (h : Ebbing n tickAfter p) :
    Ebbing n tickAfter (p.act .tick) := by
  have hsq : Steady c period ((p.flag false).turn.flag p.loop.stopRequested) :=
    ((hs.flag false).turn hp).flag _
  -- what holds before the loop looks again holds after
  have again : Ebbing n tickAfter ((p.flag false).turn.flag p.loop.stopRequested) →
      Ebbing n tickAfter (p.act .tick) := by
    intro hq
    rw [Pulse.act]
    split
    · exact hq.turn hp hsq
    · exact hq
  cases h with
  | @during beat hstop hbeat hn ht =>
    have hbeat' : (p.flag false).loop.Beats beat := hbeat
    obtain ⟨l, hl, -, htick, hbeats⟩ := Heartbeat.leg_of_beats hbeat' (p.flag false).world
    obtain ⟨b, hb⟩ := (hs.flag false).carried hl
    have hlen := hb.length_begun hl
    have hclock := (Heartbeat.leg_clock hl).1
    rcases hr : l.result with ⟨f, w⟩
    rw [hr] at hclock
    cases f with
    | finished a =>
      have hpos : 0 < (p.flag false).loop.periodMs := (hs.flag false).periodMs.symm ▸ hp
      have hturn : (p.flag false).turn.flag p.loop.stopRequested =
          ⟨{ p.loop with phase := .waiting (tickAfter w.clock) }, w,
            p.past ++ [b.endAt p.world.clock], none⟩ := by
        have hclear : ¬ (p.flag false).loop.stopRequested = true := Bool.false_ne_true
        rw [Pulse.turn_finished hl hr, Heartbeat.await_eq hpos, if_neg hclear, hb.eq, htick, ← ht]
        rfl
      by_cases hcome : tickAfter w.clock ≤ w.clock
      · refine again (.late (o := b.endAt p.world.clock) ?_ ?_)
        · rw [hturn, ← hn]
          exact List.getElem?_concat_length
        · rw [show w.clock = p.world.clock from hclock] at hcome
          exact hcome
      · have hearly : ((p.flag false).turn.flag p.loop.stopRequested).early = true := by
          rw [hturn]
          exact decide_eq_true (Nat.lt_of_not_le hcome)
        obtain ⟨ho, hsame⟩ := Pulse.turn_of_waiting
          (p := (p.flag false).turn.flag p.loop.stopRequested) (by rw [hturn]) (by rw [hturn]; exact hstop)
        rw [Pulse.act, if_pos hearly]
        refine .ended ho (hsame ▸ ?_)
        exact hlen.trans (congrArg (· + 1) hn)
    | waiting wake r next =>
      refine again ?_
      rw [Pulse.turn_unfinished hl hr]
      exact .during hstop (hbeats _).1 hn ((hbeats _).2.trans ht)
  | ended ho hn =>
    obtain ⟨ho', hsame⟩ := Pulse.act_of_over ho .tick
    exact .ended ho' (hsame ▸ hn)
  | late ho hl =>
    obtain ⟨more, hmore⟩ := (p.flag false).past_turn
    refine again (.late ?_ hl)
    show (p.flag false).turn.past[n]? = _
    rw [← hmore]
    exact (List.getElem?_append_left (List.getElem?_eq_some_iff.1 ho).1).trans ho

theorem act (hp : 0 < period) (hs : Steady c period p) (h : Ebbing n tickAfter p)
    (m : Pulse.Move) : Ebbing n tickAfter (p.act m) := by
  cases m with
  | pass w =>
    rw [Pulse.act]
    split
    · cases h with
      | during hstop hbeat hn ht => exact .during hstop hbeat hn ht
      | ended ho hn => exact .ended ho hn
      | late ho hl => exact .late ho hl
    · exact h
  | stop =>
    cases h with
    | during _ hbeat hn ht => exact .during rfl hbeat hn ht
    | ended ho hn => exact .ended ho hn
    | late ho hl => exact .late ho hl
  | turn => exact h.turn hp hs
  | tick => exact h.tick hp hs

theorem play (hp : 0 < period) (hs : Steady c period p) (h : Ebbing n tickAfter p)
    (moves : List Pulse.Move) : Ebbing n tickAfter (p.play moves) := by
  induction moves generalizing p with
  | nil => exact h
  | cons m moves ih => exact ih (hs.act hp m) (h.act hp hs m)

/-- Another heartbeat has begun only where the tick had come. -/
theorem exists_late (hs : Steady c period p) (h : Ebbing n tickAfter p)
    (hlt : n + 1 < p.begun.length) : ∃ o ∈ p.past[n]?, tickAfter o.ended ≤ o.ended := by
  cases h with
  | @during beat hstop hbeat hn ht =>
    have hlen := hs.length_of_beats hbeat
    omega
  | ended ho hn => omega
  | @late o ho hl => exact ⟨o, ho, hl⟩

end Ebbing

/-- **A stop that was signalled while the loop waits** for a tick that has not come: it ends without
another heartbeat. -/
inductive Waning (bs : List Beat) (p : Pulse) : Prop where
  | waiting {tick : Nat} (hs : p.loop.stopRequested = true) (hph : p.loop.phase = .waiting tick)
    (ht : p.world.clock < tick) (hb : p.begun = bs)
  | ended (ho : p.loop.isOver = true) (hb : p.begun = bs)

namespace Waning

variable {bs : List Beat}

theorem act (h : Waning bs p) {m : Pulse.Move}
    (hm : ∀ w, m = .pass w → ∀ t, p.loop.due p.world = some t → w.clock ≤ max t p.world.clock) :
    Waning bs (p.act m) := by
  cases h with
  | ended ho hb =>
    obtain ⟨ho', hsame⟩ := Pulse.act_of_over ho m
    exact .ended ho' (hsame.trans hb)
  | @waiting tick hs hph ht hb =>
    have hturn : Waning bs p.turn := by
      obtain ⟨ho, hsame⟩ := Pulse.turn_of_waiting hph hs
      exact .ended ho (hsame.trans hb)
    cases m with
    | pass w =>
      rw [Pulse.act]
      split
      · -- the stop is seen at once, so no time passes before
        have hdue : p.loop.due p.world = some p.world.clock := by
          rw [Heartbeat.due, hph]
          exact if_pos hs
        have hle := hm w rfl _ hdue
        rw [Nat.max_self] at hle
        exact .waiting hs hph (Nat.lt_of_le_of_lt hle ht) hb
      · exact .waiting hs hph ht hb
    | stop => exact .waiting rfl hph ht hb
    | turn => exact hturn
    | tick =>
      -- the tick has not come, so the loop sees the stop after all
      have hidle : (p.flag false).loop.leg p.world = none := by
        unfold Heartbeat.leg
        rw [show (p.flag false).loop.phase = .waiting tick from hph]
        exact if_neg fun h => absurd h.2 (Nat.not_le_of_lt ht)
      have hsame : (p.flag false).turn.flag p.loop.stopRequested = p := by
        rcases Pulse.turn_idle (p := p.flag false) hidle with he | ⟨hstop, -⟩
        · rw [he]
          rfl
        · cases hstop
      have hearly : p.early = true := by
        unfold Pulse.early
        rw [hph]
        exact decide_eq_true ht
      rw [Pulse.act, hsame, if_pos hearly]
      exact hturn

theorem play (h : Waning bs p) {moves : List Pulse.Move} (hm : p.Prompt moves) :
    (p.play moves).begun = bs := by
  have key : Waning bs (p.play moves) := by
    induction moves generalizing p with
    | nil => exact h
    | cons m moves ih => exact ih (h.act hm.1) hm.2
  cases key with
  | waiting _ _ _ hb => exact hb
  | ended _ hb => exact hb

end Waning

/-! ## All of it together -/

namespace Pulse

/-- A stop that was signalled is not lost. -/
theorem act_stopRequested (m : Move) :
    (p.act m).loop.stopRequested = true ↔ p.loop.stopRequested = true ∨ m = .stop := by
  cases m with
  | pass w =>
    rw [act]
    split <;> simp
  | stop => simp [act, flag]
  | turn => simp [act, turn_stopRequested]
  | tick =>
    rw [act]
    split
    · rw [turn_stopRequested]
      simp [flag]
    · simp [flag]

theorem play_stopRequested (moves : List Move) :
    (p.play moves).loop.stopRequested = true ↔ p.loop.stopRequested = true ∨ Move.stop ∈ moves := by
  induction moves generalizing p with
  | nil => simp [play]
  | cons m moves ih =>
    refine ih.trans ?_
    rw [act_stopRequested, List.mem_cons, or_assoc, @eq_comm _ m]

theorem Going.isOver (hg : p.Going) (h : Steady c period p) : p.loop.isOver = false := by
  have hstopped := hg.2
  have hf := h.fits
  unfold Heartbeat.isStopped at hstopped
  unfold Fits at hf
  unfold Heartbeat.isOver
  split
  · rename_i hph
    rw [hph] at hf
    exact hf.elim
  · rename_i hph
    rw [hph] at hstopped
    cases hstopped
  · rfl

end Pulse

namespace Steady

/-- A startup, and then only intervals. -/
theorem reasons_begun (h : Steady c period p) :
    p.begun.map (·.reason) = reasons p.begun.length := by
  rw [p.length_begun, Pulse.begun, List.map_append, List.map_map]
  cases hc : p.current with
  | none =>
    exact (List.append_nil _).trans h.order.reasons
  | some b => exact (h.next b hc).reason

/-- What began was sent, or will have been. -/
theorem sent_begun (h : Steady c period p) : ∀ b ∈ p.begun, ∃ us, c.Sent b.reason (b.turns ++ us) := by
  intro b hb
  rcases List.mem_append.1 hb with hb | hb
  · obtain ⟨o, ho, rfl⟩ := List.mem_map.1 hb
    exact ⟨[], (List.append_nil o.turns).symm ▸ h.order.sent o ho⟩
  · have hc : p.current = some b := Option.mem_toList.1 hb
    obtain ⟨beat, hbeat⟩ := h.exists_beats (by rw [hc]; exact Option.some_ne_none b)
    obtain ⟨d, hd, hafter⟩ := h.carries hbeat
    obtain rfl : d = b := Option.some.inj (hd.symm.trans hc)
    exact Client.exists_sent hafter p.world

theorem first_begun (h : Steady c period p) :
    ∀ a ∈ p.past.head?, ∀ b ∈ p.begun[1]?, a.ended + period ≤ b.began := by
  intro a ha b hb
  obtain ⟨past, hpast⟩ := List.head?_eq_some_iff.1 ha
  rw [Pulse.begun, hpast] at hb
  cases past with
  | nil =>
    refine (h.next b ?_).first a hpast
    cases hc : p.current with
    | none =>
      rw [hc] at hb
      cases hb
    | some d =>
      rw [hc] at hb
      exact hb
  | cons x past =>
    obtain rfl : x.toBeat = b := Option.some.inj hb
    exact h.order.first a x past hpast

/-- A heartbeat that began posts no more than once, and gives no collector up. -/
theorem keeps_begun (h : Steady c period p) : ∀ b ∈ p.begun,
    b.turns.countP (·.request.posts) ≤ 1 ∧ ∀ t ∈ b.turns, t.request ≠ .use none := by
  intro b hb
  obtain ⟨us, hsent⟩ := h.sent_begun b hb
  have hcount := hsent.countP_posts
  rw [List.countP_append] at hcount
  exact ⟨by omega, fun t ht => hsent.keeps t (List.mem_append_left _ ht)⟩

/-- What a loop that goes on comes to. -/
theorem going (hp : 0 < period) (h : Steady c period p) (hg : p.Going) :
    p.loop.isOver = false ∧ (∃ t, p.loop.due p.world = some t) ∧
      (p.current = none → p.loop.Due p.world → p.turn.begun.length = p.begun.length + 1) ∧
      ∀ n, p.Brings n :=
  ⟨hg.isOver h, h.exists_due hg, fun hc hd => h.length_turn_begun hg hd hc, fun n => h.brings hp hg n⟩

/-- Once the startup is over the loop is due a period later. -/
theorem due_first (h : Steady c period p) (hg : p.Going) {a : PastBeat} (ha : a ∈ p.past.head?)
    (hlen : p.begun.length = 1) :
    p.past = [a] ∧ p.loop.phase = .waiting (a.ended + period) ∧
      p.loop.due p.world = some (a.ended + period) := by
  rw [p.length_begun] at hlen
  obtain ⟨past, hpast⟩ := List.head?_eq_some_iff.1 ha
  have hnil : past = [] ∧ p.current = none := by
    rw [hpast, List.length_cons] at hlen
    cases hc : p.current with
    | none =>
      refine ⟨List.eq_nil_of_length_eq_zero ?_, rfl⟩
      rw [hc, Option.toList_none, List.length_nil] at hlen
      omega
    | some b =>
      rw [hc, Option.toList_some, List.length_singleton] at hlen
      omega
  obtain ⟨rfl, hc⟩ := hnil
  obtain ⟨tick, hph⟩ := h.exists_tick (hg.isOver h) hc (by simp [hpast])
  have htick := h.tick_eq hpast hph
  subst htick
  refine ⟨hpast, hph, ?_⟩
  unfold Heartbeat.due
  rw [hph]
  exact if_neg (by rw [hg.1]; exact Bool.false_ne_true)

end Steady

namespace Pulse

/-- **The heartbeats of a loop**, whatever is replied, however long each takes, and whenever a stop is
signalled. The first is a startup, and all others are intervals. Each is one whole heartbeat: a
resolution, one post to the collector that it came to, and no collector is given up; the loop does
nothing else. No two overlap. Until a stop is signalled the loop goes on, and brings as many as one
likes. The first interval begins no sooner than a period after the startup was over, and exactly then
if time waits for what is due. A stop that is signalled is not lost: after one that was signalled while a
heartbeat was under way another begins only if the tick after it had come when it was over, and after
one that was signalled between two heartbeats none does. A loop that was stopped begins none. -/
theorem play_beats (c : Client) {period : Nat} (hp : 0 < period) (w : World) (moves : List Move) :
    let start := begin c period w
    let p := start.play moves
    p.begun.map (·.reason) = reasons p.begun.length ∧
    -- each is a single post
    (∀ o ∈ p.past, c.Sent o.reason o.turns) ∧
    (∀ b ∈ p.begun, (∃ us, c.Sent b.reason (b.turns ++ us)) ∧
      b.turns.countP (·.request.posts) ≤ 1 ∧ ∀ t ∈ b.turns, t.request ≠ .use none) ∧
    (∀ m, (∀ v, m ≠ .pass v) → ∃ ts, (p.act m).turns = p.turns ++ ts ∧
      doings (p.act m).world.deeds = doings p.world.deeds ++ doings (deedsOf ts)) ∧
    -- no two overlap
    p.past.Pairwise (·.ended ≤ ·.began) ∧
    (∀ o ∈ p.past, ∀ t ∈ o.turns, o.began ≤ t.world.clock ∧ t.world.clock ≤ o.ended) ∧
    (∀ b ∈ p.current, (∀ o ∈ p.past, o.ended ≤ b.began) ∧ ∀ t ∈ b.turns, b.began ≤ t.world.clock) ∧
    -- none ends the loop
    (Move.stop ∉ moves → p.loop.isOver = false ∧ (∃ t, p.loop.due p.world = some t) ∧
      (p.current = none → p.loop.Due p.world → p.turn.begun.length = p.begun.length + 1) ∧
      ∀ n, p.Brings n) ∧
    -- the first interval
    (∀ a ∈ p.past.head?, ∀ b ∈ p.begun[1]?, a.ended + period ≤ b.began) ∧
    (start.Prompt moves → ∀ a ∈ p.past.head?,
      (∀ b ∈ p.begun[1]?, b.began = a.ended + period) ∧
      (Move.stop ∉ moves → p.begun.length = 1 →
        p.loop.due p.world = some (a.ended + period) ∧ p.world.clock ≤ a.ended + period)) ∧
    -- a stop
    (p.loop.stopRequested = true ↔ Move.stop ∈ moves) ∧
    (Move.stop ∈ moves → p.current ≠ none → ∀ more, p.begun.length < (p.play more).begun.length →
      ∃ o ∈ (p.play more).past[p.past.length]?, p.loop.tickAfter o.ended ≤ o.ended) ∧
    (Move.stop ∈ moves → p.early = true → ∀ more, p.Prompt more →
      (p.play more).begun = p.begun) ∧
    (p.loop.isStopped = true → ∀ more, (p.play more).begun = p.begun) := by
  intro start p
  have h : Steady c period p := (Steady.begin c period w).play hp moves
  have hstop : p.loop.stopRequested = true ↔ Move.stop ∈ moves := by
    refine (play_stopRequested moves).trans ?_
    simp [start, begin, Heartbeat.begin]
  have hgoing : Move.stop ∉ moves → p.Going := fun hm =>
    (Steady.begin c period w).going_play hp ⟨rfl, rfl⟩ hm
  refine ⟨h.reasons_begun, h.order.sent, fun b hb => ⟨h.sent_begun b hb, h.keeps_begun b hb⟩,
    fun m hm => h.act_doings hp hm, h.order.apart, h.order.during, ?_, ?_, h.first_begun, ?_, hstop, ?_,
    ?_, ?_⟩
  · intro b hb
    have hnext := h.next b hb
    exact ⟨hnext.later, fun t ht => (hnext.during t ht).1⟩
  · exact fun hm => h.going hp (hgoing hm)
  · intro hprompt a ha
    have hpunctual : Punctual period p :=
      (Punctual.begin c period w).play hp (Steady.begin c period w) hprompt
    refine ⟨hpunctual.first a ha, fun hm hlen => ?_⟩
    obtain ⟨hpast, hph, hdue⟩ := h.due_first (hgoing hm) ha hlen
    exact ⟨hdue, hpunctual.waits a _ hpast hph⟩
  · intro hm hc more hlt
    obtain ⟨beat, hbeat⟩ := h.exists_beats hc
    rw [h.length_of_beats hbeat] at hlt
    have hebbing : Ebbing p.past.length p.loop.tickAfter p :=
      .during (hstop.2 hm) hbeat rfl rfl
    exact (hebbing.play hp h more).exists_late (h.play hp more) hlt
  · intro hm hearly more hprompt
    unfold early at hearly
    split at hearly
    · rename_i tick hph
      exact (Waning.waiting (hstop.2 hm) hph (of_decide_eq_true hearly) rfl).play hprompt
    · cases hearly
  · intro hs more
    exact play_of_over (Heartbeat.isOver_of_isStopped hs) more

/-! ### Loops that were tried -/

/-- So many times, time passes to where the loop is due, and the loop takes a step. -/
def driven (p : Pulse) : Nat → List Move
  | 0 => []
  | n + 1 =>
    let pass := .pass { p.world with clock := max p.world.clock ((p.loop.due p.world).getD 0) }
    pass :: .turn :: (p.act pass).turn.driven n

theorem prompt_driven (p : Pulse) (n : Nat) : p.Prompt (p.driven n) := by
  induction n generalizing p with
  | zero => trivial
  | succ n ih =>
    refine ⟨fun w hw t ht => ?_, nofun, ih _⟩
    cases hw
    rw [ht]
    exact Nat.le_of_eq (Nat.max_comm _ t)

theorem prompt_append {moves more : List Move} (hm : p.Prompt moves)
    (hmore : (p.play moves).Prompt more) : p.Prompt (moves ++ more) := by
  induction moves generalizing p with
  | nil => exact hmore
  | cons m moves ih => exact ⟨hm.1, ih hm.2 hmore⟩

/-- A client that always falls back. -/
def caller : Client := ⟨⟨"agent-1", "ws-01", "10.0.0.5"⟩, ⟨none, [], "http://collector:3000"⟩⟩

/-- Every post fails after three milliseconds. -/
def failing : Surroundings :=
  { Rehearsal.surroundings (fun _ => (.printed "", 0)) (fun _ => (.printed "", 0))
      (Decoder.scripted []) with
    latency := fun
      | .post _ => 3
      | _ => 0 }

/-- The startup fails at three, so the interval begins at thirteen. Then the stop is signalled, and
another one begins only if the interval lasts until twenty-three. -/
theorem play_beats_twice :
    let start := begin caller 10 (World.begin failing ⟨[], []⟩)
    let moves := start.driven 3 ++ [.stop]
    let p := start.play moves
    0 < 10 ∧ start.Prompt moves ∧
      p.begun.map (fun b => (b.reason, b.began)) = [("startup", 0), ("interval", 13)] ∧
      p.past.map (·.ended) = [3] ∧ p.loop.tickAfter 0 = 23 ∧
      (∀ b ∈ p.begun, ∃ us, caller.Sent b.reason (b.turns ++ us)) ∧
      ∀ more, p.begun.length < (p.play more).begun.length →
        ∃ o ∈ (p.play more).past[p.past.length]?, p.loop.tickAfter o.ended ≤ o.ended := by
  intro start moves p
  have hp : 0 < 10 := by decide
  obtain ⟨-, -, hsent, -, -, -, -, -, -, -, -, hstop, -⟩ :=
    play_beats caller hp (World.begin failing ⟨[], []⟩) moves
  have hcurrent : p.current.isSome = true := by decide +kernel
  refine ⟨hp, prompt_append (prompt_driven start 3) ⟨nofun, trivial⟩, ?_, ?_, ?_,
    fun b hb => (hsent b hb).1, hstop ?_ (Option.isSome_iff_ne_none.1 hcurrent)⟩
  · decide +kernel
  · decide +kernel
  · decide +kernel
  · exact List.mem_append_right _ (List.mem_singleton_self _)

/-- **A loop without a period breaks down**: once the startup is over no interval ever begins, whatever
happens, although nobody has asked the loop to stop. -/
theorem play_breaks_down :
    let start := begin caller 0 (World.begin failing ⟨[], []⟩)
    let moves := start.driven 2
    let p := start.play moves
    start.Prompt moves ∧ p.begun.map (·.reason) = ["startup"] ∧ p.past.map (·.ended) = [3] ∧
      p.loop.stopRequested = false ∧ p.loop.isStopped = false ∧
      ∀ more, (p.play more).begun.map (·.reason) = ["startup"] := by
  intro start moves p
  have hreasons : p.begun.map (·.reason) = ["startup"] := by decide +kernel
  have hover : p.loop.isOver = true := by decide +kernel
  refine ⟨prompt_driven start 2, hreasons, ?_, ?_, ?_, fun more => ?_⟩
  · decide +kernel
  · decide +kernel
  · decide +kernel
  · rw [play_of_over hover more]
    exact hreasons

end Pulse

end DownloadTriage
