import DownloadTriage.Proofs.Beats
import DownloadTriage.Proofs.Ending

/-!
# The pulse of a heartbeat loop

A loop is moved by whoever has a turn: it takes a step, the stop is signalled, or time passes, in which
others do what they like. Where a tick and a stop are both there, either may come first. On the way it
is noted which heartbeats began, which turns they took, and when they were over.

* `Pulse.advance_moves`: the machine of the loop is made of moves.
* `Steady.carried`: the heartbeat that a step carries on.
* `Steady.act`, `Steady.play`: every move keeps the heartbeats in order.
* `Steady.turn_doings`: besides what it logs, the loop does what its heartbeats do.
-/

namespace DownloadTriage

/-! ## Heartbeats as they are noted -/

/-- A heartbeat: why it was sent, when it began, and the turns that it took so far. -/
structure Beat where
  reason : String
  began : Nat
  turns : List Turn

/-- A heartbeat that is over. -/
structure PastBeat extends Beat where
  ended : Nat

/-- A loop, the world around it, the heartbeats that are over, and the one under way. -/
structure Pulse where
  loop : Heartbeat
  world : World
  past : List PastBeat
  current : Option Beat

namespace Beat

/-- The heartbeat takes more turns. -/
def goOn (b : Beat) (ts : List Turn) : Beat := { b with turns := b.turns ++ ts }

/-- The heartbeat is over. -/
def endAt (b : Beat) (time : Nat) : PastBeat := { b with ended := time }

end Beat

namespace Pulse

/-- A loop that has not started. -/
def begin (c : Client) (periodMs : Nat) (w : World) : Pulse := ⟨.begin c periodMs, w, [], none⟩

/-- The heartbeats that began. -/
def begun (p : Pulse) : List Beat := p.past.map (·.toBeat) ++ p.current.toList

theorem length_begun (p : Pulse) : p.begun.length = p.past.length + p.current.toList.length := by
  rw [begun, List.length_append, List.length_map]

/-- The turns of all heartbeats. -/
def turns (p : Pulse) : List Turn := p.begun.flatMap (·.turns)

/-- The heartbeat that a step carries on. -/
def carried (p : Pulse) (l : Heartbeat.Leg) : Option Beat :=
  match l.begins with
  | some reason => some ⟨reason, p.world.clock, l.turns⟩
  | none => p.current.map (·.goOn l.turns)

/-- The loop takes a step. -/
def turn (p : Pulse) : Pulse :=
  let r := p.loop.step p.world
  match p.loop.leg p.world with
  | none => { p with loop := r.1, world := r.2 }
  | some l =>
    match l.result.1 with
    | .finished _ => ⟨r.1, r.2, p.past ++ (p.carried l).toList.map (·.endAt p.world.clock), none⟩
    | .waiting _ _ _ => ⟨r.1, r.2, p.past, p.carried l⟩

/-- The wish to stop, as it is seen. -/
def flag (p : Pulse) (stop : Bool) : Pulse := { p with loop := { p.loop with stopRequested := stop } }

/-- The loop waits for a tick that has not come. -/
def early (p : Pulse) : Bool :=
  match p.loop.phase with
  | .waiting tick => decide (p.world.clock < tick)
  | _ => false

/-- What happens next. -/
inductive Move where
  /-- Time passes, and others act. -/
  | pass (w : World)
  /-- The stop is signalled. -/
  | stop
  /-- The loop takes a step, and if it waits looks for a stop first. -/
  | turn
  /-- The loop takes a step, and if it waits looks for a tick first. -/
  | tick

/-- One move. A tick that has come hides the stop, and a tick that has not does not. -/
def act (p : Pulse) : Move → Pulse
  | .pass w => if p.world.clock ≤ w.clock then { p with world := w } else p
  | .stop => p.flag true
  | .turn => p.turn
  | .tick =>
    let q := (p.flag false).turn.flag p.loop.stopRequested
    if q.early then q.turn else q

/-- Moves, one after the other. -/
def play (p : Pulse) (moves : List Move) : Pulse := moves.foldl act p

variable {p : Pulse} {l : Heartbeat.Leg}

/-! ### One step -/

theorem turn_loop (p : Pulse) :
    p.turn.loop = (p.loop.step p.world).1 ∧ p.turn.world = (p.loop.step p.world).2 := by
  unfold turn
  dsimp only
  split
  · exact ⟨rfl, rfl⟩
  · split <;> exact ⟨rfl, rfl⟩

theorem turn_clock (p : Pulse) : p.turn.world.clock = p.world.clock := by
  rw [p.turn_loop.2, Heartbeat.step_clock]

/-- Two steps are a run of the loop. -/
theorem turn_turn (p : Pulse) :
    (p.turn.turn.loop, p.turn.turn.world) = p.loop.run p.world := by
  obtain ⟨hl, hw⟩ := p.turn_loop
  obtain ⟨hl', hw'⟩ := p.turn.turn_loop
  rw [hl', hw', hl, hw]
  rfl

/-- **The machine over time** is made of moves: time passes until the loop is due, it takes two steps,
and so on. -/
theorem advance_moves (p : Pulse) {now target : Nat} (hnow : p.world.clock ≤ now)
    (htarget : now ≤ target) : ∃ moves, Move.stop ∉ moves ∧
      Heartbeat.machine.advance now target [p.loop] p.world =
        ([(p.play moves).loop], (p.play moves).world) := by
  -- induction on the time that is left, which gets shorter with every turn of the machine
  induction hleft : target - now using Nat.strongRecOn generalizing p now with
  | ind left ih =>
    obtain ⟨q, hq⟩ : ∃ q : Pulse,
        q = ({ p with world := { p.world with clock := now } } : Pulse).turn.turn := ⟨_, rfl⟩
    have hrun : Heartbeat.machine.run [p.loop] { p.world with clock := now } =
        ([q.loop], q.world) := by
      obtain ⟨hl, hw⟩ := Prod.mk.inj
        (turn_turn { p with world := { p.world with clock := now } })
      rw [hq, hl, hw]
      rfl
    have hclock : q.world.clock = now := by rw [hq, turn_clock, turn_clock]
    obtain ⟨first, hfirst, hplay⟩ : ∃ first, Move.stop ∉ first ∧
        ∀ more, p.play (first ++ more) = q.play more := by
      refine ⟨[.pass { p.world with clock := now }, .turn, .turn], by simp, fun more => ?_⟩
      have hpass : p.act (.pass { p.world with clock := now }) =
          { p with world := { p.world with clock := now } } := if_pos hnow
      rw [hq, play, List.cons_append, List.foldl_cons, hpass]
      rfl
    have hlast : ∃ moves, Move.stop ∉ moves ∧
        ([q.loop], { q.world with clock := target }) =
          ([(p.play moves).loop], (p.play moves).world) := by
      refine ⟨first ++ [.pass { q.world with clock := target }], by simp [hfirst], ?_⟩
      have hpass : q.act (.pass { q.world with clock := target }) =
          { q with world := { q.world with clock := target } } := if_pos (hclock ▸ htarget)
      rw [hplay, play, List.foldl_cons, hpass]
      rfl
    rw [Machine.advance, hrun]
    dsimp only
    split
    · exact hlast
    · split
      · rename_i t _ hlt
        obtain ⟨more, hmore, hadvance⟩ := ih (target - max t (now + 1)) (by omega) q
          (hclock ▸ by omega) (Nat.le_of_lt hlt) rfl
        refine ⟨first ++ more, by simp [hfirst, hmore], ?_⟩
        rw [hplay, hadvance]
      · exact hlast

theorem turn_idle (hl : p.loop.leg p.world = none) :
    p.turn = p ∨ p.loop.stopRequested = true ∧ p.loop.isStopped = false ∧ ∃ lines,
      p.turn = { p with loop := { p.loop with phase := .stopped }, world := p.world.say lines } := by
  have hturn : p.turn =
      { p with loop := (p.loop.step p.world).1, world := (p.loop.step p.world).2 } := by
    unfold turn
    dsimp only
    rw [hl]
  rcases Heartbeat.step_of_idle hl with hs | ⟨hstop, hgoing, lines, hs⟩
  · left
    rw [hturn, hs]
  · right
    refine ⟨hstop, hgoing, lines, ?_⟩
    rw [hturn, hs]

theorem turn_finished {a : Bool} {w : World} (hl : p.loop.leg p.world = some l)
    (hr : l.result = (.finished a, w)) :
    p.turn = ⟨(p.loop.await (l.tick w.clock) w).1, (p.loop.await (l.tick w.clock) w).2,
      p.past ++ (p.carried l).toList.map (·.endAt p.world.clock), none⟩ := by
  unfold turn
  dsimp only
  rw [Heartbeat.step_of_leg hl, hl]
  dsimp only
  rw [hr]
  rfl

theorem turn_unfinished {wake : Nat} {r : Request} {next : Reply r → Program Bool} {w : World}
    (hl : p.loop.leg p.world = some l) (hr : l.result = (.waiting wake r next, w)) :
    p.turn = ⟨{ p.loop with phase := l.unfinished (.waiting wake r next) }, w, p.past,
      p.carried l⟩ := by
  unfold turn
  dsimp only
  rw [Heartbeat.step_of_leg hl, hl]
  dsimp only
  rw [hr]
  rfl

/-- The heartbeat that a step carries on is the last one that began. -/
theorem turn_begun {b : Beat} (hl : p.loop.leg p.world = some l) (hb : p.carried l = some b) :
    p.turn.begun = p.past.map (·.toBeat) ++ [b] := by
  rcases hr : l.result with ⟨f, w⟩
  cases f with
  | finished a =>
    rw [turn_finished hl hr, hb, begun, List.map_append]
    exact List.append_nil _
  | waiting wake r next =>
    rw [turn_unfinished hl hr, hb]
    rfl

end Pulse

/-! ## Heartbeats in order -/

/-- The reasons of the first heartbeats: a startup, and then intervals. -/
def reasons : Nat → List String
  | 0 => []
  | n + 1 => "startup" :: List.replicate n "interval"

theorem reasons_succ {n : Nat} (hn : n ≠ 0) : reasons (n + 1) = reasons n ++ ["interval"] := by
  cases n with
  | zero => exact absurd rfl hn
  | succ n => rw [reasons, reasons, List.replicate_succ', List.cons_append]

/-- **Heartbeats in order**: a startup and then intervals. Each was a whole heartbeat, and was over
before the next began. The first interval began no sooner than a period after the startup was over. -/
structure InOrder (c : Client) (period : Nat) (past : List PastBeat) : Prop where
  reasons : past.map (·.reason) = reasons past.length
  sent : ∀ o ∈ past, c.Sent o.reason o.turns
  during : ∀ o ∈ past, ∀ t ∈ o.turns, o.began ≤ t.world.clock ∧ t.world.clock ≤ o.ended
  apart : past.Pairwise (·.ended ≤ ·.began)
  first : ∀ a b rest, past = a :: b :: rest → a.ended + period ≤ b.began

/-- The heartbeat is the next in order, up to now. -/
structure Beat.Next (period : Nat) (past : List PastBeat) (now : Nat) (b : Beat) : Prop where
  reason : past.map (·.reason) ++ [b.reason] = reasons (past.length + 1)
  later : ∀ o ∈ past, o.ended ≤ b.began
  first : ∀ a, past = [a] → a.ended + period ≤ b.began
  began : b.began ≤ now
  during : ∀ t ∈ b.turns, b.began ≤ t.world.clock ∧ t.world.clock ≤ now

variable {c : Client} {period now : Nat} {past : List PastBeat} {b : Beat}

theorem InOrder.nil (c : Client) (period : Nat) : InOrder c period [] where
  reasons := rfl
  sent _ h := absurd h List.not_mem_nil
  during _ h := absurd h List.not_mem_nil
  apart := .nil
  first _ _ _ h := nomatch h

/-- The next heartbeat is over. -/
theorem InOrder.append (h : InOrder c period past) (hb : b.Next period past now)
    (hs : c.Sent b.reason b.turns) : InOrder c period (past ++ [b.endAt now]) where
  reasons := by
    rw [List.map_append, List.length_append]
    exact hb.reason
  sent := List.forall_mem_append.2 ⟨h.sent, List.forall_mem_singleton.2 hs⟩
  during := List.forall_mem_append.2 ⟨h.during, List.forall_mem_singleton.2 hb.during⟩
  apart := List.pairwise_append.2 ⟨h.apart, List.pairwise_singleton .., fun o ho =>
    List.forall_mem_singleton.2 (hb.later o ho)⟩
  first := by
    intro a d rest he
    match past, he with
    | [x], he =>
      obtain ⟨rfl, hd, -⟩ : x = a ∧ b.endAt now = d ∧ _ := by simpa using he
      rw [← hd]
      exact hb.first x rfl
    | x :: y :: past, he =>
      obtain ⟨rfl, rfl, -⟩ : x = a ∧ y = d ∧ _ := by simpa using he
      exact h.first x y past rfl

namespace Beat.Next

/-- A heartbeat that begins now. -/
theorem ofNow {reason : String} {ts : List Turn} (hr : past.map (·.reason) ++ [reason] =
      reasons (past.length + 1)) (hpast : ∀ o ∈ past, o.ended ≤ now)
    (hfirst : ∀ a, past = [a] → a.ended + period ≤ now) (ht : ∀ t ∈ ts, t.world.clock = now) :
    Next period past now ⟨reason, now, ts⟩ where
  reason := hr
  later := hpast
  first := hfirst
  began := Nat.le_refl now
  during t hm := ⟨Nat.le_of_eq (ht t hm).symm, Nat.le_of_eq (ht t hm)⟩

theorem goOn {ts : List Turn} (h : b.Next period past now) (ht : ∀ t ∈ ts, t.world.clock = now) :
    (b.goOn ts).Next period past now where
  reason := h.reason
  later := h.later
  first := h.first
  began := h.began
  during := List.forall_mem_append.2 ⟨h.during, fun t hm => by
    rw [ht t hm]
    exact ⟨h.began, Nat.le_refl now⟩⟩

theorem pass (h : b.Next period past now) {time : Nat} (hle : now ≤ time) :
    b.Next period past time where
  reason := h.reason
  later := h.later
  first := h.first
  began := Nat.le_trans h.began hle
  during t ht := ⟨(h.during t ht).1, Nat.le_trans (h.during t ht).2 hle⟩

end Beat.Next

/-! ## What every move keeps -/

/-- The heartbeat under way, and what is left of it. -/
def Pulse.Carries (c : Client) (p : Pulse) (beat : Fiber Bool) : Prop :=
  ∃ b, p.current = some b ∧ (c.heartbeat b.reason).After b.turns beat.rest

/-- The phase of the loop tells which heartbeats there are. -/
def Pulse.Fits (c : Client) (period : Nat) (p : Pulse) : Prop :=
  match p.loop.phase with
  | .fresh => p.past = [] ∧ p.current = none
  | .starting beat => p.past = [] ∧ p.Carries c beat
  | .beating beat _ => p.past ≠ [] ∧ p.Carries c beat
  | .waiting tick =>
    p.past ≠ [] ∧ p.current = none ∧ ∀ a, p.past = [a] → tick = a.ended + period
  | .broken => False
  | .stopped => p.current = none

/-- **What every move keeps**: the heartbeats are in order, and the loop is where they say. -/
structure Steady (c : Client) (period : Nat) (p : Pulse) : Prop where
  client : p.loop.client = c
  periodMs : p.loop.periodMs = period
  underway : p.loop.Underway
  order : InOrder c period p.past
  past : ∀ o ∈ p.past, o.ended ≤ p.world.clock
  next : ∀ b ∈ p.current, b.Next period p.past p.world.clock
  fits : p.Fits c period

namespace Steady

variable {p : Pulse} {l : Heartbeat.Leg}

theorem begin (c : Client) (period : Nat) (w : World) : Steady c period (.begin c period w) where
  client := rfl
  periodMs := rfl
  underway := trivial
  order := .nil c period
  past _ h := absurd h List.not_mem_nil
  next _ h := nomatch h
  fits := ⟨rfl, rfl⟩

theorem flag (h : Steady c period p) (stop : Bool) : Steady c period (p.flag stop) where
  client := h.client
  periodMs := h.periodMs
  underway := h.underway
  order := h.order
  past := h.past
  next := h.next
  fits := h.fits

theorem pass (h : Steady c period p) {w : World} (hle : p.world.clock ≤ w.clock) :
    Steady c period { p with world := w } where
  client := h.client
  periodMs := h.periodMs
  underway := h.underway
  order := h.order
  past o ho := Nat.le_trans (h.past o ho) hle
  next b hb := (h.next b hb).pass hle
  fits := h.fits

/-- With nothing to carry on, no heartbeat is under way. -/
theorem idle (h : Steady c period p) (hl : p.loop.leg p.world = none) : p.current = none := by
  have hf := h.fits
  unfold Pulse.Fits at hf
  unfold Heartbeat.leg at hl
  split at hf
  · exact hf.2
  · rename_i he
    rw [he] at hl
    cases hl
  · rename_i he
    rw [he] at hl
    cases hl
  · exact hf.2.1
  · exact hf.elim
  · exact hf

/-- A step carries a heartbeat on: the next in order, which begins where none is under way. What the
step leaves of it is what is left of the program. It is the first, or it has a tick after it. -/
structure Carried (c : Client) (period : Nat) (p : Pulse) (l : Heartbeat.Leg) (b : Beat) : Prop where
  eq : p.carried l = some b
  next : b.Next period p.past p.world.clock
  source : p.current = none ∧ b.began = p.world.clock ∧ b.turns = l.turns ∨
    ∃ d, p.current = some d ∧ b = d.goOn l.turns
  after : (c.heartbeat b.reason).After b.turns l.result.1.rest
  kind : p.past = [] ∧ l.unfinished = .starting ∧ l.tick = (· + period) ∨
    p.past ≠ [] ∧ ∃ tick, l.unfinished = (.beating · tick) ∧ l.tick = fun _ => tick

/-- **The heartbeat that a step carries on.** -/
theorem carried (h : Steady c period p) (hl : p.loop.leg p.world = some l) :
    ∃ b, Carried c period p l b := by
  have hclock := (Heartbeat.leg_clock hl).2
  obtain ⟨⟨client, period', phase, stop⟩, w, past, current⟩ := p
  obtain ⟨hclient, hperiod, -, horder, hpast, hnext, hf⟩ := h
  dsimp only at hclient hperiod horder hpast hnext hclock hl ⊢
  subst hclient hperiod
  cases phase with
  | fresh =>
    obtain ⟨rfl, rfl⟩ : past = [] ∧ current = none := hf
    obtain rfl := Option.some.inj hl
    exact ⟨_, rfl, .ofNow rfl hpast nofun hclock, .inl ⟨rfl, rfl, rfl⟩, Program.start_after _ _,
      .inl ⟨rfl, rfl, rfl⟩⟩
  | starting beat =>
    obtain ⟨rfl, b, hb, ha⟩ : past = [] ∧ _ := hf
    obtain rfl := Option.some.inj hl
    obtain rfl : current = some b := hb
    exact ⟨_, rfl, (hnext b rfl).goOn hclock, .inr ⟨b, rfl, rfl⟩, ha.trans (beat.resume_after w),
      .inl ⟨rfl, rfl, rfl⟩⟩
  | beating beat tick =>
    obtain ⟨hsome, b, hb, ha⟩ : past ≠ [] ∧ _ := hf
    obtain rfl := Option.some.inj hl
    obtain rfl : current = some b := hb
    exact ⟨_, rfl, (hnext b rfl).goOn hclock, .inr ⟨b, rfl, rfl⟩, ha.trans (beat.resume_after w),
      .inr ⟨hsome, tick, rfl, rfl⟩⟩
  | waiting tick =>
    obtain ⟨hsome, rfl, hfirst⟩ : past ≠ [] ∧ current = none ∧ _ := hf
    unfold Heartbeat.leg at hl
    dsimp only at hl
    split at hl
    · rename_i hcome
      obtain rfl := Option.some.inj hl
      refine ⟨_, rfl, .ofNow ?_ hpast ?_ hclock, .inl ⟨rfl, rfl, rfl⟩, Program.start_after _ _,
        .inr ⟨hsome, _, rfl, rfl⟩⟩
      · rw [reasons_succ (by simpa using hsome), horder.reasons]
      · intro a ha
        rw [← hfirst a ha]
        exact hcome.2
    · cases hl
  | broken => cases hl
  | stopped => cases hl

/-- The heartbeat that a step carries on is over. -/
theorem finish (h : Steady c period p) (hb : b.Next period p.past p.world.clock)
    (hs : c.Sent b.reason b.turns) {phase : HeartbeatPhase} {w : World}
    (hw : w.clock = p.world.clock)
    (hu : Heartbeat.Underway { p.loop with phase := phase })
    (hf : Pulse.Fits c period
      ⟨{ p.loop with phase := phase }, w, p.past ++ [b.endAt p.world.clock], none⟩) :
    Steady c period ⟨{ p.loop with phase := phase }, w, p.past ++ [b.endAt p.world.clock], none⟩ where
  client := h.client
  periodMs := h.periodMs
  underway := hu
  order := h.order.append hb hs
  past := by
    rw [hw]
    exact List.forall_mem_append.2 ⟨h.past, List.forall_mem_singleton.2 (Nat.le_refl _)⟩
  next _ hn := nomatch hn
  fits := hf

/-- **Every step** keeps the heartbeats in order. -/
theorem turn (hp : 0 < period) (h : Steady c period p) : Steady c period p.turn := by
  cases hl : p.loop.leg p.world with
  | none =>
    rcases Pulse.turn_idle hl with he | ⟨-, -, lines, he⟩
    · rw [he]
      exact h
    · rw [he]
      exact ⟨h.client, h.periodMs, trivial, h.order, h.past, h.next, h.idle hl⟩
  | some l =>
    obtain ⟨b, hb, hnext, -, hafter, hkind⟩ := h.carried hl
    have hclock := (Heartbeat.leg_clock hl).1
    have hunder := p.loop.step_underway p.world
    rw [← p.turn_loop.1] at hunder
    rcases hr : l.result with ⟨f, w⟩
    rw [hr] at hafter hclock
    cases f with
    | finished a =>
      have hsent : c.Sent b.reason b.turns := Client.heartbeat_course hafter.course
      have hpos : 0 < p.loop.periodMs := h.periodMs.symm ▸ hp
      rw [Pulse.turn_finished hl hr, hb, Heartbeat.await_eq hpos]
      split
      · exact h.finish hnext hsent hclock trivial rfl
      · refine h.finish hnext hsent hclock trivial ⟨by simp, rfl, fun o ho => ?_⟩
        -- the first heartbeat that is over sets the first tick
        rcases hkind with ⟨hnil, -, htick⟩ | ⟨hnil, -⟩
        · rw [hnil, List.nil_append] at ho
          obtain rfl : b.endAt p.world.clock = o := by simpa using ho
          rw [htick]
          exact congrArg (· + period) hclock
        · simp [List.append_eq_singleton_iff, hnil] at ho
    | waiting wake r next =>
      rw [Pulse.turn_unfinished hl hr, hb] at hunder ⊢
      dsimp only at hclock hunder
      refine ⟨h.client, h.periodMs, hunder, h.order, ?_, ?_, ?_⟩
      · rw [hclock]
        exact h.past
      · rw [hclock]
        rintro d ⟨⟩
        exact hnext
      · unfold Pulse.Fits
        rcases hkind with ⟨hnil, hu, -⟩ | ⟨hnil, tick, hu, -⟩
        · rw [hu]
          exact ⟨hnil, b, rfl, hafter⟩
        · rw [hu]
          exact ⟨hnil, b, rfl, hafter⟩

/-- **Every move** keeps the heartbeats in order. -/
theorem act (hp : 0 < period) (h : Steady c period p) (m : Pulse.Move) :
    Steady c period (p.act m) := by
  cases m with
  | pass w =>
    rw [Pulse.act]
    split
    · rename_i hle
      exact h.pass hle
    · exact h
  | stop => exact h.flag true
  | turn => exact h.turn hp
  | tick =>
    have hq := ((h.flag false).turn hp).flag p.loop.stopRequested
    rw [Pulse.act]
    split
    · exact hq.turn hp
    · exact hq

theorem play (hp : 0 < period) (h : Steady c period p) (moves : List Pulse.Move) :
    Steady c period (p.play moves) := by
  induction moves generalizing p with
  | nil => exact h
  | cons m moves ih => exact ih (h.act hp m)

/-! ## What the loop does -/

/-- **Besides what it logs** a step does what its heartbeat does. -/
theorem turn_doings (h : Steady c period p) : ∃ ts, p.turn.turns = p.turns ++ ts ∧
    doings p.turn.world.deeds = doings p.world.deeds ++ doings (deedsOf ts) := by
  cases hl : p.loop.leg p.world with
  | none =>
    refine ⟨[], (List.append_nil _).symm ▸ ?_, (List.append_nil _).symm ▸ ?_⟩
    · rcases Pulse.turn_idle hl with he | ⟨-, -, lines, he⟩
      · rw [he]
      · rw [he]
        rfl
    · rcases Pulse.turn_idle hl with he | ⟨-, -, lines, he⟩
      · rw [he]
      · rw [he]
        exact doings_say _ _
  | some l =>
    obtain ⟨b, hb⟩ := h.carried hl
    obtain ⟨v, -, hv, ht⟩ := Heartbeat.leg_taken hl
    refine ⟨l.turns, ?_, ?_⟩
    · have hafter : p.turn.turns = p.past.flatMap (·.turns) ++ b.turns := by
        rw [Pulse.turns, Pulse.turn_begun hl hb.eq]
        simp [List.flatMap_map]
      rw [hafter, Pulse.turns, Pulse.begun]
      rcases hb.source with ⟨hc, -, hts⟩ | ⟨d, hc, rfl⟩
      · rw [hc, hts]
        simp [List.flatMap_map]
      · rw [hc]
        simp [List.flatMap_map, Beat.goOn]
    · rw [p.turn_loop.2, Heartbeat.step_of_leg hl, Heartbeat.proceed_doings, ht.deeds, doings_append,
        hv]

/-- So does every move of the loop. -/
theorem act_doings (hp : 0 < period) (h : Steady c period p) {m : Pulse.Move}
    (hm : ∀ w, m ≠ .pass w) : ∃ ts, (p.act m).turns = p.turns ++ ts ∧
      doings (p.act m).world.deeds = doings p.world.deeds ++ doings (deedsOf ts) := by
  cases m with
  | pass w => exact absurd rfl (hm w)
  | stop => exact ⟨[], (List.append_nil _).symm, (List.append_nil _).symm⟩
  | turn => exact h.turn_doings
  | tick =>
    have hq := ((h.flag false).turn hp).flag p.loop.stopRequested
    obtain ⟨ts, hts, hdoings⟩ := (h.flag false).turn_doings
    rw [Pulse.act]
    split
    · obtain ⟨us, hus, hmore⟩ := hq.turn_doings
      refine ⟨ts ++ us, ?_, ?_⟩
      · rw [hus, ← List.append_assoc]
        exact congrArg (· ++ us) hts
      · rw [hmore, deedsOf_append, doings_append, ← List.append_assoc]
        exact congrArg (· ++ doings (deedsOf us)) hdoings
    · exact ⟨ts, hts, hdoings⟩

end Steady

end DownloadTriage
