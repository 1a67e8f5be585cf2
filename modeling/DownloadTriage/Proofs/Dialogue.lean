import DownloadTriage.Program.Fiber

/-!
# What a program does in every world

The world that answers a program is shared: files change, time passes and others use the collector
between two of its requests. A **turn** is a request with the world that answers it, and
`Program.Ensures` quantifies over the world of every turn, with surroundings that stay. So what a
program ensures holds however its requests interleave with what goes on beside it.

* `ensures_bind`: one program after another.
* `Program.start_follows`, `Fiber.resume_follows`: a fiber is its program after the turns it took,
  and the world is the one after them.
* `Program.start_ends`: a fiber that is resumed whenever it is due comes to its end.
-/

namespace DownloadTriage

/-! ## Turns -/

/-- The request has the collector recorded, which is all that changes files. -/
def Request.records : Request → Bool
  | .record _ _ => true
  | _ => false

/-- What was done so far, in order. -/
def World.deeds (w : World) : List Deed := w.trace.map (·.2)

/-- A request and the world that answers it. -/
structure Turn where
  world : World
  request : Request

namespace Turn

/-- The world after the answer. -/
def after (t : Turn) : World := (t.world.answer t.request).2

/-- What the answer adds to what was done. -/
def deeds (t : Turn) : List Deed := t.after.deeds.drop t.world.deeds.length

end Turn

/-- What a list of turns adds to what was done. -/
def deedsOf (ts : List Turn) : List Deed := ts.flatMap Turn.deeds

@[simp] theorem deedsOf_nil : deedsOf [] = [] := rfl

@[simp] theorem deedsOf_cons (t : Turn) (ts : List Turn) :
    deedsOf (t :: ts) = t.deeds ++ deedsOf ts := rfl

@[simp] theorem deedsOf_append (ts us : List Turn) :
    deedsOf (ts ++ us) = deedsOf ts ++ deedsOf us := List.flatMap_append

namespace World

@[simp] theorem deeds_mark (w : World) (d : Deed) : (w.mark d).deeds = w.deeds ++ [d] := by
  simp [deeds, mark]

@[simp] theorem deeds_say (w : World) (lines : List LogLine) :
    (w.say lines).deeds = w.deeds ++ lines.map .logged := by
  simp [deeds, say, Function.comp_def]

theorem reply_files (w : World) : (w.answer .files).1 = w.files := rfl

theorem answer_around (w : World) (r : Request) : (w.answer r).2.around = w.around := by
  cases r <;> rfl

theorem answer_clock (w : World) (r : Request) : (w.answer r).2.clock = w.clock := by
  cases r <;> rfl

theorem answer_files (w : World) {r : Request} (h : r.records = false) :
    (w.answer r).2.files = w.files := by
  cases r <;> first | rfl | cases h

/-- An answer only adds to what was done. -/
theorem answer_deeds (w : World) (r : Request) : ∃ ds, (w.answer r).2.deeds = w.deeds ++ ds := by
  cases r <;> first
    | exact ⟨_, deeds_mark w _⟩
    | exact ⟨_, deeds_say w _⟩
    | exact ⟨[], (List.append_nil _).symm⟩

end World

theorem Turn.after_deeds (t : Turn) : t.after.deeds = t.world.deeds ++ t.deeds := by
  obtain ⟨ds, h⟩ := t.world.answer_deeds t.request
  have ha : t.after.deeds = t.world.deeds ++ ds := h
  rw [deeds, ha, List.drop_left]

/-- **The deeds of one turn**: only a record leaves more than one, and these are log lines. -/
theorem Turn.deeds_eq (t : Turn) :
    t.deeds = match t.request with
      | .log l => [.logged l]
      | .now | .sleep _ | .endpoint | .files | .keptRound _ | .keepRound _ _ => []
      | .use url => [.used url]
      | .record path url => (LastKnown.save t.world.files url path).2.map .logged
      | .discover => [.discovered (t.world.around.rounds t.world.discoveries)]
      | .probe url => [.probed url (t.world.around.healthy t.world.probes.length url)]
      | .post p => [.posted p (t.world.around.replies t.world.posts.length)]
      | .exchange r => [.exchanged r]
      | .emit e => [.emitted e]
      | .submit r => [.submitted r]
      | .consult path _ => [.consulted path]
      | .standIn path _ => [.stoodIn path]
      | .draw => [.drawn]
      | .decode r => [.decoded r] := by
  obtain ⟨w, r⟩ := t
  cases r <;>
    simp [deeds, after, World.answer, World.deeds, World.mark, World.say, Function.comp_def]

/-- The turns lead from one world to another, with nothing in between. -/
def Taken : World → List Turn → World → Prop
  | w, [], w' => w' = w
  | w, t :: ts, w' => t.world = w ∧ Taken t.after ts w'

namespace Taken

variable {w w' w'' : World} {ts us : List Turn}

theorem append (h : Taken w ts w') (h' : Taken w' us w'') : Taken w (ts ++ us) w'' := by
  induction ts generalizing w with
  | nil => rw [show w' = w from h] at h'; exact h'
  | cons t ts ih => exact ⟨h.1, ih h.2⟩

theorem deeds (h : Taken w ts w') : w'.deeds = w.deeds ++ deedsOf ts := by
  induction ts generalizing w with
  | nil => rw [show w' = w from h]; simp
  | cons t ts ih => rw [ih h.2, t.after_deeds, h.1, deedsOf_cons, List.append_assoc]

theorem clock (h : Taken w ts w') : w'.clock = w.clock := by
  induction ts generalizing w with
  | nil => rw [show w' = w from h]
  | cons t ts ih => rw [ih h.2, ← h.1]; exact t.world.answer_clock t.request

theorem around (h : Taken w ts w') :
    w'.around = w.around ∧ ∀ t ∈ ts, t.world.around = w.around := by
  induction ts generalizing w with
  | nil => rw [show w' = w from h]; simp
  | cons t ts ih =>
    have ha : t.after.around = w.around := by
      rw [← h.1]; exact t.world.answer_around t.request
    obtain ⟨h1, h2⟩ := ih h.2
    rw [ha] at h1 h2
    exact ⟨h1, List.forall_mem_cons.2 ⟨by rw [h.1], h2⟩⟩

/-- Until the first record the files stay as they are. -/
theorem files_takeWhile (h : Taken w ts w') :
    ∀ t ∈ ts.takeWhile fun t => !t.request.records, t.world.files = w.files := by
  induction ts generalizing w with
  | nil => simp
  | cons t ts ih =>
    intro u hu
    -- the first turn that records ends the list
    cases hr : t.request.records with
    | true => simp [hr] at hu
    | false =>
      have hf : t.after.files = w.files := by
        rw [← h.1]; exact t.world.answer_files hr
      simp only [List.takeWhile_cons, hr, Bool.not_false, if_true, List.mem_cons] at hu
      rcases hu with rfl | hu
      · rw [h.1]
      · rw [← hf]; exact ih h.2 u hu

/-- Turns without a record see the files as they were, and so do the ones after them until the first
record. -/
theorem files_until (h : Taken w (ts ++ us) w') (hts : ∀ t ∈ ts, t.request.records = false) :
    ∀ t ∈ ts ++ us.takeWhile fun t => !t.request.records, t.world.files = w.files := by
  rw [← List.takeWhile_append_of_pos fun t ht => by rw [hts t ht]; rfl]
  exact h.files_takeWhile

end Taken

/-! ## What a program ensures -/

namespace Program

variable {α β : Type} {s : Surroundings}

/-- However the turns of the program are answered, turns and result are as said. -/
def Ensures (s : Surroundings) : Program α → (List Turn → α → Prop) → Prop
  | done a, Q => Q [] a
  | ask r next, Q => ∀ w : World, w.around = s →
      (next (w.answer r).1).Ensures s fun ts a => Q (⟨w, r⟩ :: ts) a

theorem Ensures.mono {p : Program α} {Q R : List Turn → α → Prop} (h : p.Ensures s Q)
    (hQ : ∀ ts a, Q ts a → R ts a) : p.Ensures s R := by
  induction p generalizing Q R with
  | done a => exact hQ _ _ h
  | ask r next ih => exact fun w hw => ih _ (h w hw) fun ts a => hQ _ a

theorem Ensures.and {p : Program α} {Q R : List Turn → α → Prop} (hQ : p.Ensures s Q)
    (hR : p.Ensures s R) : p.Ensures s fun ts a => Q ts a ∧ R ts a := by
  induction p generalizing Q R with
  | done a => exact ⟨hQ, hR⟩
  | ask r next ih => exact fun w hw => ih _ (hQ w hw) (hR w hw)

/-- **One program after another.** -/
theorem ensures_bind (p : Program α) (f : α → Program β) (Q : List Turn → β → Prop) :
    (p >>= f).Ensures s Q ↔
      p.Ensures s fun ts a => (f a).Ensures s fun us b => Q (ts ++ us) b := by
  show (p.bind f).Ensures s Q ↔ _
  induction p generalizing Q with
  | done a => rfl
  | ask r next ih => exact forall_congr' fun w => forall_congr' fun _ => ih _ _

theorem ensures_pure (a : α) (Q : List Turn → α → Prop) :
    (pure a : Program α).Ensures s Q ↔ Q [] a := Iff.rfl

theorem ensures_request (r : Request) (Q : List Turn → Reply r → Prop) :
    (request r).Ensures s Q ↔ ∀ w : World, w.around = s → Q [⟨w, r⟩] (w.answer r).1 := Iff.rfl

theorem ensures_log (l : LogLine) (Q : List Turn → Unit → Prop) :
    (log l).Ensures s Q ↔ ∀ w : World, w.around = s → Q [⟨w, .log l⟩] () := Iff.rfl

/-- In some world every program comes to an end. -/
theorem Ensures.exists {p : Program α} {Q : List Turn → α → Prop} (h : p.Ensures s Q) :
    ∃ ts a, Q ts a := by
  induction p generalizing Q with
  | done a => exact ⟨[], a, h⟩
  | ask r next ih =>
    -- any world with these surroundings will do
    obtain ⟨ts, a, hQ⟩ := ih _ (h (World.begin s ⟨[], []⟩) rfl)
    exact ⟨_, a, hQ⟩

/-- All requests of the program are of a kind. -/
def Only (kind : Request → Prop) : Program α → Prop
  | done _ => True
  | ask r next => kind r ∧ ∀ x, (next x).Only kind

variable {kind : Request → Prop}

theorem only_pure (a : α) : (pure a : Program α).Only kind := trivial

theorem only_request {r : Request} (h : kind r) : (request r).Only kind := ⟨h, fun _ => trivial⟩

theorem only_log {l : LogLine} (h : kind (.log l)) : (log l).Only kind := only_request h

theorem Only.bind {p : Program α} {f : α → Program β} (hp : p.Only kind)
    (hf : ∀ a, (f a).Only kind) : (p >>= f).Only kind := by
  show (p.bind f).Only kind
  induction p with
  | done a => exact hf a
  | ask r next ih => exact ⟨hp.1, fun x => ih x (hp.2 x)⟩

theorem Only.mono {p : Program α} {other : Request → Prop} (h : p.Only kind)
    (hk : ∀ r, kind r → other r) : p.Only other := by
  induction p with
  | done a => trivial
  | ask r next ih => exact ⟨hk r h.1, fun x => ih x (h.2 x)⟩

theorem Only.ensures {p : Program α} (h : p.Only kind) :
    p.Ensures s fun ts _ => ∀ t ∈ ts, kind t.request := by
  induction p with
  | done a => exact fun t ht => absurd ht (List.not_mem_nil)
  | ask r next ih =>
    exact fun w _ => (ih _ (h.2 _)).mono fun ts a hts => List.forall_mem_cons.2 ⟨h.1, hts⟩

end Program

/-! ## Fibers -/

namespace Fiber

variable {α : Type} {s : Surroundings}

/-- However the turns still to come are answered, turns and result are as said. -/
def Ensures (s : Surroundings) : Fiber α → (List Turn → α → Prop) → Prop
  | finished a, Q => Q [] a
  | waiting _ r next, Q => (Program.ask r next).Ensures s Q

/-- The fiber is what is left of the program after the turns. -/
def Follows (s : Surroundings) (f : Fiber α) (p : Program α) (ts : List Turn) : Prop :=
  ∀ Q : List Turn → α → Prop, p.Ensures s Q → f.Ensures s fun us a => Q (ts ++ us) a

variable {p : Program α} {ts : List Turn}

theorem Follows.result {a : α} (h : (finished a).Follows s p ts) {Q : List Turn → α → Prop}
    (hp : p.Ensures s Q) : Q ts a := by
  have := h Q hp
  simpa [Ensures] using this

/-- The turns taken so far begin a whole course of the program. -/
theorem Follows.exists {f : Fiber α} (h : f.Follows s p ts) {Q : List Turn → α → Prop}
    (hp : p.Ensures s Q) : ∃ us a, Q (ts ++ us) a := by
  cases f with
  | finished a => exact ⟨[], a, by simpa using h.result hp⟩
  | waiting wake r next =>
    have hr : (Program.ask r next).Ensures s fun us a => Q (ts ++ us) a := h Q hp
    exact hr.exists

end Fiber

/-- **A program that starts** takes turns until it has to wait. -/
theorem Program.start_follows {α : Type} (p : Program α) (w : World) :
    ∃ ts, Taken w ts (p.start w).2 ∧ (p.start w).1.Follows w.around p ts := by
  induction p generalizing w with
  | done a => exact ⟨[], rfl, fun Q h => h⟩
  | ask r next ih =>
    -- a request without latency is a turn at once, any other waits
    by_cases hl : w.latency r = 0
    · obtain ⟨ts, ht, hf⟩ := ih (w.answer r).1 (w.answer r).2
      rw [w.answer_around] at hf
      rw [start, if_pos hl]
      exact ⟨⟨w, r⟩ :: ts, ⟨rfl, ht⟩, fun Q h => hf _ (h w rfl)⟩
    · rw [start, if_neg hl]
      exact ⟨[], rfl, fun Q h => h⟩

namespace Fiber

variable {α : Type} {p : Program α} {ts : List Turn}

/-- **A fiber that goes on** takes turns until it has to wait again. -/
theorem resume_follows {f : Fiber α} {w : World} (h : f.Follows w.around p ts) :
    ∃ us, Taken w us (f.resume w).2 ∧ (f.resume w).1.Follows w.around p (ts ++ us) := by
  cases f with
  | finished a => exact ⟨[], rfl, by simpa [resume] using h⟩
  | waiting wake r next =>
    by_cases hw : wake ≤ w.clock
    · obtain ⟨us, hu, hf⟩ := (next (w.answer r).1).start_follows (w.answer r).2
      rw [w.answer_around] at hf
      rw [resume, if_pos hw]
      refine ⟨⟨w, r⟩ :: us, ⟨rfl, hu⟩, fun Q hp => ?_⟩
      -- what the request ensures, it ensures of this answer too
      simpa [List.append_assoc] using hf _ (h Q hp w rfl)
    · rw [resume, if_neg hw]
      exact ⟨[], rfl, by simpa using h⟩

/-- All requests still to come are of a kind. -/
def Only (kind : Request → Prop) : Fiber α → Prop
  | finished _ => True
  | waiting _ r next => (Program.ask r next).Only kind

/-- The fiber comes to its end if it is resumed whenever it is due. -/
inductive Ends : Fiber α → Prop where
  | finished (a : α) : Ends (finished a)
  | waiting {wake : Nat} {r : Request} {next : Reply r → Program α}
      (h : ∀ w : World, wake ≤ w.clock → Ends ((waiting wake r next).resume w).1) :
      Ends (waiting wake r next)

theorem Ends.resume {f : Fiber α} {w : World} (hf : f.Ends) : (f.resume w).1.Ends := by
  cases hf with
  | finished a => exact .finished a
  | @waiting wake r next h =>
    by_cases hw : wake ≤ w.clock
    · exact h w hw
    · rw [Fiber.resume, if_neg hw]
      exact .waiting h

end Fiber

theorem Fiber.resume_clock {α : Type} (f : Fiber α) (w : World) :
    (f.resume w).2.clock = w.clock := by
  cases f with
  | finished a => rfl
  | waiting wake r next =>
    by_cases hw : wake ≤ w.clock
    · obtain ⟨ts, ht, -⟩ := (next (w.answer r).1).start_follows (w.answer r).2
      rw [resume, if_pos hw, ht.clock, w.answer_clock]
    · rw [resume, if_neg hw]

section Kinds

variable {α : Type} {kind : Request → Prop}

theorem Program.Only.start {p : Program α} (h : p.Only kind) (w : World) :
    ∃ ts, Taken w ts (p.start w).2 ∧ (∀ t ∈ ts, kind t.request) ∧ (p.start w).1.Only kind := by
  induction p generalizing w with
  | done a => exact ⟨[], rfl, by simp, trivial⟩
  | ask r next ih =>
    by_cases hl : w.latency r = 0
    · obtain ⟨ts, ht, hts, hf⟩ := ih _ (h.2 (w.answer r).1) (w.answer r).2
      rw [Program.start, if_pos hl]
      exact ⟨⟨w, r⟩ :: ts, ⟨rfl, ht⟩, List.forall_mem_cons.2 ⟨h.1, hts⟩, hf⟩
    · rw [Program.start, if_neg hl]
      exact ⟨[], rfl, by simp, h⟩

theorem Fiber.Only.resume {f : Fiber α} (h : f.Only kind) (w : World) :
    ∃ ts, Taken w ts (f.resume w).2 ∧ (∀ t ∈ ts, kind t.request) ∧ (f.resume w).1.Only kind := by
  cases f with
  | finished a => exact ⟨[], rfl, by simp, trivial⟩
  | waiting wake r next =>
    by_cases hw : wake ≤ w.clock
    · obtain ⟨ts, ht, hts, hf⟩ := (h.2 (w.answer r).1).start (w.answer r).2
      rw [Fiber.resume, if_pos hw]
      exact ⟨⟨w, r⟩ :: ts, ⟨rfl, ht⟩, List.forall_mem_cons.2 ⟨h.1, hts⟩, hf⟩
    · rw [Fiber.resume, if_neg hw]
      exact ⟨[], rfl, by simp, h⟩

end Kinds

theorem Program.start_ends {α : Type} (p : Program α) (w : World) : (p.start w).1.Ends := by
  induction p generalizing w with
  | done a => exact .finished a
  | ask r next ih =>
    by_cases hl : w.latency r = 0
    · rw [start, if_pos hl]; exact ih _ _
    · rw [start, if_neg hl]
      refine .waiting fun w' hw => ?_
      rw [Fiber.resume, if_pos hw]
      -- the program is smaller after every answer, whatever the world is by then
      exact ih _ _

end DownloadTriage
