import DownloadTriage.Proofs.Meanwhile
import DownloadTriage.Proofs.Requests
import DownloadTriage.Proofs.Sharing

/-!
# One heartbeat

A heartbeat looks for a collector, posts one document to it and logs the reply. It does so over any
length of time: its fiber takes some turns whenever it is resumed, and others may act in between.

* `Program.start_after`, `Fiber.resume_after`: the turns so far, and any course of what is left, are a
  course of the program.
* `Client.heartbeat_course`: the turns of a whole heartbeat.
* `Heartbeat.step_of_leg`, `Heartbeat.step_of_idle`: what a step of the loop does, for a heartbeat or
  without one.
-/

namespace DownloadTriage

/-! ## The turns of a fiber -/

namespace Taken

/-- Turns that are taken one after the other take no time. -/
theorem clock_eq {w w' : World} {ts : List Turn} (h : Taken w ts w') :
    ∀ t ∈ ts, t.world.clock = w.clock := by
  induction ts generalizing w with
  | nil => exact fun t ht => absurd ht List.not_mem_nil
  | cons t ts ih =>
    have ha : t.after.clock = w.clock := by
      rw [← h.1]
      exact t.world.answer_clock t.request
    refine List.forall_mem_cons.2 ⟨by rw [h.1], fun u hu => ?_⟩
    rw [ih h.2 u hu, ha]

end Taken

namespace Program

variable {α : Type} {p q r : Program α} {ts us : List Turn}

/-- The turns that a program takes before it has to wait. -/
def startTurns : Program α → World → List Turn
  | done _, _ => []
  | ask r next, w =>
    if w.latency r = 0 then ⟨w, r⟩ :: (next (w.answer r).1).startTurns (w.answer r).2 else []

/-- The second program is what the turns leave of the first. -/
def After (p : Program α) (ts : List Turn) (q : Program α) : Prop :=
  ∀ us a, q.Course us a → p.Course (ts ++ us) a

theorem After.trans (h : p.After ts q) (h' : q.After us r) : p.After (ts ++ us) r := by
  intro vs a hr
  rw [List.append_assoc]
  exact h _ _ (h' _ _ hr)

/-- A program of which nothing is left has taken a whole course. -/
theorem After.course {a : α} (h : p.After ts (.done a)) : p.Course ts a := by
  have hdone := h [] a ⟨rfl, rfl⟩
  rwa [List.append_nil] at hdone

theorem After.answer {w : World} {rq : Request} {next : Reply rq → Program α}
    (h : (next (w.answer rq).1).After ts q) : (ask rq next).After (⟨w, rq⟩ :: ts) q :=
  fun us a hq => ⟨w, ts ++ us, rfl, h us a hq⟩

theorem start_taken (p : Program α) (w : World) : Taken w (p.startTurns w) (p.start w).2 := by
  induction p generalizing w with
  | done a => exact rfl
  | ask r next ih =>
    by_cases hl : w.latency r = 0
    · rw [startTurns, start, if_pos hl, if_pos hl]
      exact ⟨rfl, ih _ _⟩
    · rw [startTurns, start, if_neg hl, if_neg hl]
      exact rfl

/-- **A program that starts** takes its first turns. -/
theorem start_after (p : Program α) (w : World) :
    p.After (p.startTurns w) (p.start w).1.rest := by
  induction p generalizing w with
  | done a => exact fun us b h => h
  | ask r next ih =>
    by_cases hl : w.latency r = 0
    · rw [startTurns, start, if_pos hl, if_pos hl]
      exact (ih _ _).answer
    · rw [startTurns, start, if_neg hl, if_neg hl]
      exact fun us b h => h

end Program

namespace Fiber

variable {α : Type}

/-- The turns that a fiber takes when it goes on. -/
def resumeTurns : Fiber α → World → List Turn
  | finished _, _ => []
  | waiting wake r next, w =>
    if wake ≤ w.clock then ⟨w, r⟩ :: (next (w.answer r).1).startTurns (w.answer r).2 else []

theorem resume_taken (f : Fiber α) (w : World) : Taken w (f.resumeTurns w) (f.resume w).2 := by
  cases f with
  | finished a => exact rfl
  | waiting wake r next =>
    by_cases hw : wake ≤ w.clock
    · rw [resumeTurns, resume, if_pos hw, if_pos hw]
      exact ⟨rfl, Program.start_taken _ _⟩
    · rw [resumeTurns, resume, if_neg hw, if_neg hw]
      exact rfl

/-- **A fiber that goes on** takes its next turns. -/
theorem resume_after (f : Fiber α) (w : World) :
    f.rest.After (f.resumeTurns w) (f.resume w).1.rest := by
  cases f with
  | finished a => exact fun us b h => h
  | waiting wake r next =>
    by_cases hw : wake ≤ w.clock
    · rw [resumeTurns, resume, if_pos hw, if_pos hw]
      exact (Program.start_after _ _).answer
    · rw [resumeTurns, resume, if_neg hw, if_neg hw]
      exact fun us b h => h

end Fiber

/-! ## A whole heartbeat -/

namespace Client

variable {c : Client} {reason : String} {ts : List Turn}

/-- What a heartbeat posts to a collector. -/
def presence (c : Client) (base reason : String) : Post :=
  ⟨base ++ "/api/clients/heartbeat", heartbeatBody c.identity reason, heartbeatTimeoutMs⟩

/-- **A heartbeat was sent**: a whole resolution came to a collector, the document was posted there
once, and the reply was logged, whatever it was. -/
def Sent (c : Client) (reason : String) (ts : List Turn) : Prop :=
  ∃ looked base v v', c.locator.resolve.Course looked base ∧
    (∀ t ∈ looked, t.request.locates = true) ∧
    ts = looked ++ [⟨v, .post (c.presence base reason)⟩,
      ⟨v', .log (heartbeatLine reason (v.answer (.post (c.presence base reason))).1)⟩]

/-- **The turns of a whole heartbeat.** -/
theorem heartbeat_course {a : Bool} (h : (c.heartbeat reason).Course ts a) : c.Sent reason ts := by
  obtain ⟨looked, us, base, rfl, hlooked, hsend⟩ := (Program.course_bind ..).1 h
  obtain ⟨v, vs, rfl, hlog⟩ := hsend
  obtain ⟨v', xs, rfl, rfl, -⟩ := hlog
  exact ⟨looked, base, v, v', hlooked, c.locator.resolve_only.course hlooked, rfl⟩

/-- Of a heartbeat under way the turns so far begin one that was sent. -/
theorem exists_sent {q : Program Bool} (h : (c.heartbeat reason).After ts q) (w : World) :
    ∃ us, c.Sent reason (ts ++ us) := by
  obtain ⟨us, a, hq⟩ := q.exists_course w
  exact ⟨us, heartbeat_course (h us a hq)⟩

theorem Sent.countP_posts (h : c.Sent reason ts) : ts.countP (·.request.posts) = 1 := by
  obtain ⟨looked, base, v, v', -, hlocates, rfl⟩ := h
  have hnone : looked.countP (·.request.posts) = 0 := by
    rw [List.countP_eq_zero]
    intro t ht
    rw [Request.not_posts_of_locates (hlocates t ht)]
    exact Bool.false_ne_true
  rw [List.countP_append, hnone]
  rfl

/-- A heartbeat gives no collector up. -/
theorem Sent.keeps (h : c.Sent reason ts) : ∀ t ∈ ts, t.request ≠ .use none := by
  obtain ⟨looked, base, v, v', -, hlocates, rfl⟩ := h
  intro t ht hu
  rcases List.mem_append.1 ht with ht | ht
  · have hlocated := hlocates t ht
    rw [hu] at hlocated
    cases hlocated
  · rcases List.mem_cons.1 ht with rfl | ht
    · cases hu
    · obtain rfl := List.mem_singleton.1 ht
      cases hu

end Client

/-- What was done, apart from what was said in the log. -/
def doings (ds : List Deed) : List Deed :=
  ds.filter fun
    | .logged _ => false
    | _ => true

theorem doings_append (ds es : List Deed) : doings (ds ++ es) = doings ds ++ doings es :=
  List.filter_append ..

theorem doings_say (w : World) (lines : List LogLine) :
    doings (w.say lines).deeds = doings w.deeds := by
  have hlines : doings (lines.map Deed.logged) = [] := by simp [doings]
  rw [World.deeds_say, doings_append, hlines, List.append_nil]

/-! ## What a step does -/

namespace Heartbeat

/-- What a step does for a heartbeat: why it begins, if it does, the turns that it takes and how far
they bring it, what the phase is until it is over, and the tick after it. -/
structure Leg where
  begins : Option String
  turns : List Turn
  result : Fiber Bool × World
  unfinished : Fiber Bool → HeartbeatPhase
  tick : Nat → Nat

/-- The world after the loop has said that it starts. -/
def opened (h : Heartbeat) (w : World) : World :=
  w.say [.info ("[Heartbeat] Starting loop (every " ++ toString (h.periodMs / 1000) ++ "s)")]

/-- What the next step does for a heartbeat, if it does anything. -/
def leg (h : Heartbeat) (w : World) : Option Leg :=
  match h.phase with
  | .fresh =>
    let beat := h.client.heartbeat "startup"
    some ⟨some "startup", beat.startTurns (h.opened w), beat.start (h.opened w), .starting,
      (· + h.periodMs)⟩
  | .starting beat =>
    some ⟨none, beat.resumeTurns w, beat.resume w, .starting, (· + h.periodMs)⟩
  | .beating beat tick =>
    some ⟨none, beat.resumeTurns w, beat.resume w, (.beating · tick), fun _ => tick⟩
  | .waiting tick =>
    if h.stopRequested = false ∧ tick ≤ w.clock then
      let beat := h.client.heartbeat "interval"
      let next := nextTick h.periodMs tick w.clock
      some ⟨some "interval", beat.startTurns w, beat.start w, (.beating · next), fun _ => next⟩
    else none
  | .broken | .stopped => none

variable {h : Heartbeat} {w : World} {l : Leg}

theorem step_of_leg (hl : h.leg w = some l) :
    h.step w = h.proceed l.unfinished l.tick l.result := by
  obtain ⟨client, period, phase, stop⟩ := h
  cases phase with
  | fresh =>
    obtain rfl := Option.some.inj hl
    rfl
  | starting beat =>
    obtain rfl := Option.some.inj hl
    rfl
  | beating beat tick =>
    obtain rfl := Option.some.inj hl
    rfl
  | waiting tick =>
    unfold leg at hl
    dsimp only at hl
    split at hl
    · rename_i hcome
      obtain ⟨rfl, htick⟩ : stop = false ∧ tick ≤ w.clock := hcome
      obtain rfl := Option.some.inj hl
      simp only [step, Bool.false_eq_true, if_false, if_pos htick]
    · cases hl
  | broken => cases hl
  | stopped => cases hl

/-- A step without a heartbeat changes nothing, or ends the loop as it was asked to. -/
theorem step_of_idle (hl : h.leg w = none) :
    h.step w = (h, w) ∨ h.stopRequested = true ∧ h.isStopped = false ∧
      ∃ lines, h.step w = ({ h with phase := .stopped }, w.say lines) := by
  obtain ⟨client, period, phase, stop⟩ := h
  cases phase with
  | fresh => cases hl
  | starting beat => cases hl
  | beating beat tick => cases hl
  | waiting tick =>
    cases stop with
    | true => exact .inr ⟨rfl, rfl, _, rfl⟩
    | false =>
      left
      by_cases htick : tick ≤ w.clock
      · simp [leg, htick] at hl
      · simp [step, htick]
  | broken =>
    cases stop with
    | true => exact .inr ⟨rfl, rfl, _, rfl⟩
    | false => exact .inl rfl
  | stopped => exact .inl rfl

/-- That heartbeat is under way. -/
def Beats (h : Heartbeat) (beat : Fiber Bool) : Prop :=
  h.phase = .starting beat ∨ ∃ tick, h.phase = .beating beat tick

/-- The tick after the heartbeat under way, if it is over at that time. -/
def tickAfter (h : Heartbeat) (ended : Nat) : Nat :=
  match h.phase with
  | .starting _ => ended + h.periodMs
  | .beating _ tick => tick
  | _ => ended

/-- A step resumes the heartbeat under way, whether or not a stop was asked for. -/
theorem leg_of_beats {beat : Fiber Bool} (hb : h.Beats beat) (w : World) :
    ∃ l, h.leg w = some l ∧ l.result = beat.resume w ∧ l.tick = h.tickAfter ∧
      ∀ f, Beats { h with phase := l.unfinished f } f ∧
        tickAfter { h with phase := l.unfinished f } = h.tickAfter := by
  obtain ⟨client, period, phase, stop⟩ := h
  rcases hb with hph | ⟨tick, hph⟩
  · obtain rfl : phase = .starting beat := hph
    exact ⟨_, rfl, rfl, rfl, fun f => ⟨.inl rfl, rfl⟩⟩
  · obtain rfl : phase = .beating beat tick := hph
    exact ⟨_, rfl, rfl, rfl, fun f => ⟨.inr ⟨tick, rfl⟩, rfl⟩⟩

/-- The loop goes on when the heartbeat under way does. -/
theorem due_of_beats {beat : Fiber Bool} (hb : h.Beats beat) (w : World) : h.due w = beat.due := by
  rcases hb with hph | ⟨tick, hph⟩
  · rw [due, hph]
  · rw [due, hph]

/-- The loop sends no more heartbeats. -/
def isOver (h : Heartbeat) : Bool :=
  match h.phase with
  | .broken | .stopped => true
  | _ => false

theorem isOver_of_isStopped (hs : h.isStopped = true) : h.isOver = true := by
  unfold isStopped at hs
  unfold isOver
  split at hs
  · rename_i hph
    rw [hph]
  · cases hs

theorem leg_of_over (ho : h.isOver = true) (w : World) : h.leg w = none := by
  unfold isOver at ho
  unfold leg
  split at ho
  · rename_i hph
    rw [hph]
  · rename_i hph
    rw [hph]
  · cases ho

theorem not_over_of_leg (hl : h.leg w = some l) : h.isOver = false := by
  cases ho : h.isOver with
  | false => rfl
  | true =>
    rw [leg_of_over ho] at hl
    cases hl

theorem leg_taken (hl : h.leg w = some l) :
    ∃ v : World, v.clock = w.clock ∧ doings v.deeds = doings w.deeds ∧ Taken v l.turns l.result.2 := by
  obtain ⟨client, period, phase, stop⟩ := h
  cases phase with
  | fresh =>
    obtain rfl := Option.some.inj hl
    exact ⟨opened _ w, rfl, doings_say w _, Program.start_taken _ _⟩
  | starting beat =>
    obtain rfl := Option.some.inj hl
    exact ⟨w, rfl, rfl, beat.resume_taken w⟩
  | beating beat tick =>
    obtain rfl := Option.some.inj hl
    exact ⟨w, rfl, rfl, beat.resume_taken w⟩
  | waiting tick =>
    unfold leg at hl
    dsimp only at hl
    split at hl
    · obtain rfl := Option.some.inj hl
      exact ⟨w, rfl, rfl, Program.start_taken _ w⟩
    · cases hl
  | broken => cases hl
  | stopped => cases hl

theorem leg_clock (hl : h.leg w = some l) :
    l.result.2.clock = w.clock ∧ ∀ t ∈ l.turns, t.world.clock = w.clock := by
  obtain ⟨v, hv, -, ht⟩ := leg_taken hl
  exact ⟨ht.clock.trans hv, fun t hmem => (ht.clock_eq t hmem).trans hv⟩

/-- With a period a loop that waits is stopped if it was asked to. -/
theorem await_eq (hp : 0 < h.periodMs) (tick : Nat) (w : World) :
    h.await tick w = if h.stopRequested = true then h.stopNow w
      else ({ h with phase := .waiting tick }, w) := by
  rw [await, if_neg (by omega)]

theorem proceed_clock (h : Heartbeat) (unfinished : Fiber Bool → HeartbeatPhase)
    (tick : Nat → Nat) (r : Fiber Bool × World) :
    (h.proceed unfinished tick r).2.clock = r.2.clock := by
  unfold proceed
  split
  · unfold await stopNow
    split
    · rfl
    · split <;> rfl
  · rfl

/-- A step takes no time. -/
theorem step_clock (h : Heartbeat) (w : World) : (h.step w).2.clock = w.clock := by
  cases hl : h.leg w with
  | none =>
    rcases step_of_idle hl with hs | ⟨-, -, lines, hs⟩
    · rw [hs]
    · rw [hs]
      rfl
  | some l => rw [step_of_leg hl, proceed_clock, (leg_clock hl).1]

theorem proceed_doings (h : Heartbeat) (unfinished : Fiber Bool → HeartbeatPhase)
    (tick : Nat → Nat) (r : Fiber Bool × World) :
    doings (h.proceed unfinished tick r).2.deeds = doings r.2.deeds := by
  unfold proceed
  split
  · unfold await stopNow
    split
    · rfl
    · split
      · exact doings_say _ _
      · rfl
  · rfl

end Heartbeat

end DownloadTriage
