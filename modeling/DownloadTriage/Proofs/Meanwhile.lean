import DownloadTriage.Proofs.Dialogue

/-!
# What happens in the meantime

Between two requests of a program the world may change. A **meanwhile** says how: which worlds may
answer the next request of a program that left a world. `Program.Under` quantifies over all of them
and hands the world on from turn to turn, so that it can say what a program makes of a world.

* `under_bind`: one program after another.
* `Program.under_course`: the turns are a whole course of the program.
* `Program.course_bind`: the course of one program after another.
* `Meanwhile.alone`: nobody else is there, so only time passes. `under_runBeside` ties this to
  programs that run beside an idle machine.
-/

namespace DownloadTriage

/-- What may have happened between the world that a program left and the one that answers its next
request. -/
abbrev Meanwhile := World → Request → World → Prop

/-! ## Under a meanwhile -/

namespace Program

variable {α β : Type} {m : Meanwhile} {w : World}

/-- Whatever happens in the meantime, turns, last world and result are as said. -/
def Under (m : Meanwhile) : Program α → World → (List Turn → World → α → Prop) → Prop
  | done a, w, Q => Q [] w a
  | ask r next, w, Q => ∀ v : World, m w r v →
      (next (v.answer r).1).Under m (v.answer r).2 fun ts w' a => Q (⟨v, r⟩ :: ts) w' a

theorem Under.mono {p : Program α} {Q R : List Turn → World → α → Prop} (h : p.Under m w Q)
    (hQ : ∀ ts w' a, Q ts w' a → R ts w' a) : p.Under m w R := by
  induction p generalizing w Q R with
  | done a => exact hQ _ _ _ h
  | ask r next ih => exact fun v hv => ih _ (h v hv) fun ts w' a => hQ _ w' a

theorem Under.and {p : Program α} {Q R : List Turn → World → α → Prop} (hQ : p.Under m w Q)
    (hR : p.Under m w R) : p.Under m w fun ts w' a => Q ts w' a ∧ R ts w' a := by
  induction p generalizing w Q R with
  | done a => exact ⟨hQ, hR⟩
  | ask r next ih => exact fun v hv => ih _ (hQ v hv) (hR v hv)

/-- **One program after another.** -/
theorem under_bind (p : Program α) (f : α → Program β) (Q : List Turn → World → β → Prop) :
    (p >>= f).Under m w Q ↔
      p.Under m w fun ts v a => (f a).Under m v fun us w' b => Q (ts ++ us) w' b := by
  show (p.bind f).Under m w Q ↔ _
  induction p generalizing w Q with
  | done a => rfl
  | ask r next ih => exact forall_congr' fun v => forall_congr' fun _ => ih ..

theorem under_pure (a : α) (Q : List Turn → World → α → Prop) :
    (pure a : Program α).Under m w Q ↔ Q [] w a := Iff.rfl

theorem under_request (r : Request) (Q : List Turn → World → Reply r → Prop) :
    (request r).Under m w Q ↔
      ∀ v, m w r v → Q [⟨v, r⟩] (v.answer r).2 (v.answer r).1 := Iff.rfl

theorem under_log (l : LogLine) (Q : List Turn → World → Unit → Prop) :
    (log l).Under m w Q ↔ ∀ v, m w (.log l) v → Q [⟨v, .log l⟩] (v.mark (.logged l)) () := Iff.rfl

theorem Only.under {kind : Request → Prop} {p : Program α} (h : p.Only kind) :
    p.Under m w fun ts _ _ => ∀ t ∈ ts, kind t.request := by
  induction p generalizing w with
  | done a => exact fun t ht => absurd ht List.not_mem_nil
  | ask r next ih =>
    exact fun v _ => (ih _ (h.2 _)).mono fun ts w' a hts => List.forall_mem_cons.2 ⟨h.1, hts⟩

/-- The turns are a whole course of the program, and this is its result. -/
def Course : Program α → List Turn → α → Prop
  | done a, ts, b => ts = [] ∧ b = a
  | ask r next, ts, b => ∃ v us, ts = ⟨v, r⟩ :: us ∧ (next (v.answer r).1).Course us b

theorem under_course (p : Program α) : p.Under m w fun ts _ a => p.Course ts a := by
  induction p generalizing w with
  | done a => exact ⟨rfl, rfl⟩
  | ask r next ih => exact fun v _ => (ih _).mono fun ts w' a h => ⟨v, ts, rfl, h⟩

/-- **The course of one program after another.** -/
theorem course_bind (p : Program α) (f : α → Program β) (ts : List Turn) (b : β) :
    (p >>= f).Course ts b ↔ ∃ us vs a, ts = us ++ vs ∧ p.Course us a ∧ (f a).Course vs b := by
  show (p.bind f).Course ts b ↔ _
  induction p generalizing ts with
  | done a =>
    constructor
    · exact fun h => ⟨[], ts, a, rfl, ⟨rfl, rfl⟩, h⟩
    · rintro ⟨us, vs, a', rfl, ⟨rfl, rfl⟩, h⟩
      exact h
  | ask r next ih =>
    constructor
    · rintro ⟨v, us, rfl, h⟩
      obtain ⟨us, vs, a, rfl, hp, hf⟩ := (ih _ _).1 h
      exact ⟨⟨v, r⟩ :: us, vs, a, rfl, ⟨v, us, rfl, hp⟩, hf⟩
    · rintro ⟨-, vs, a, rfl, ⟨v, us, rfl, hp⟩, hf⟩
      exact ⟨v, us ++ vs, rfl, (ih _ _).2 ⟨us, vs, a, rfl, hp, hf⟩⟩

/-- In a world every program has some course. -/
theorem exists_course (p : Program α) (w : World) : ∃ ts a, p.Course ts a := by
  induction p with
  | done a => exact ⟨[], a, rfl, rfl⟩
  | ask r next ih =>
    obtain ⟨ts, a, h⟩ := ih (w.answer r).1
    exact ⟨⟨w, r⟩ :: ts, a, w, ts, rfl, h⟩

theorem Only.course {kind : Request → Prop} {p : Program α} (h : p.Only kind) {ts : List Turn} {a : α}
    (hc : p.Course ts a) : ∀ t ∈ ts, kind t.request := by
  induction p generalizing ts with
  | done b =>
    obtain ⟨rfl, -⟩ := hc
    exact fun t ht => absurd ht List.not_mem_nil
  | ask r next ih =>
    obtain ⟨v, us, rfl, hus⟩ := hc
    exact List.forall_mem_cons.2 ⟨h.1, ih _ (h.2 _) hus⟩

/-- What the meantime and each turn keep, a whole program keeps. -/
theorem Only.under_keeps {kind : Request → Prop} {I : World → Prop} {p : Program α}
    (h : p.Only kind) (hm : ∀ w r v, m w r v → I w → I v)
    (ht : ∀ v r, kind r → I v → I (v.answer r).2) (hw : I w) : p.Under m w fun _ w' _ => I w' := by
  induction p generalizing w with
  | done a => exact hw
  | ask r next ih => exact fun v hv => ih _ (h.2 _) (ht v r h.1 (hm w r v hv hw))

end Program

/-! ## Alone -/

/-- How long it may take until a request is answered: as long as it likes when someone outside is
asked, as long as a sleep says, and no time otherwise. -/
def Request.Takes : Request → Nat → Prop
  | .sleep d, ms => ms = d
  | .discover, _ | .probe _, _ | .post _, _ | .exchange _, _ | .consult _ _, _ | .standIn _ _, _ =>
    True
  | _, ms => ms = 0

namespace Meanwhile

/-- Nobody else is there: only the time passes that the request takes. -/
def alone : Meanwhile := fun w r v => ∃ ms, r.Takes ms ∧ v = { w with clock := w.clock + ms }

variable {w v : World} {r : Request}

theorem alone.endpoint (h : alone w r v) : v.endpoint = w.endpoint := by
  obtain ⟨ms, -, rfl⟩ := h
  rfl

theorem alone.files (h : alone w r v) : v.files = w.files := by
  obtain ⟨ms, -, rfl⟩ := h
  rfl

/-- A request that takes no time is answered by the very world. -/
theorem alone.eq (h : alone w r v) (hr : ∀ ms, r.Takes ms → ms = 0) : v = w := by
  obtain ⟨ms, hms, rfl⟩ := h
  rw [hr ms hms, Nat.add_zero]

end Meanwhile

theorem World.latency_eq {w v : World} (h : v.around = w.around) (r : Request) :
    v.latency r = w.latency r := by
  cases r <;> simp only [latency, h]

/-- **Beside an idle machine** a program does what it does alone, if its requests take the time that
they may. -/
theorem Program.under_runBeside {α : Type} {p : Program α} {w : World}
    {Q : List Turn → World → α → Prop} (h : p.Under Meanwhile.alone w Q)
    (hw : ∀ r : Request, r.Takes (w.latency r)) :
    ∃ ts, Q ts (p.runBeside Machine.idle () w).2.2 (p.runBeside Machine.idle () w).1 := by
  induction p generalizing w Q with
  | done a => exact ⟨[], h⟩
  | ask r next ih =>
    have step : ∀ v : World, Meanwhile.alone w r v → ∃ ts,
        Q (⟨v, r⟩ :: ts) ((next (v.answer r).1).runBeside Machine.idle () (v.answer r).2).2.2
          ((next (v.answer r).1).runBeside Machine.idle () (v.answer r).2).1 := by
      intro v hv
      refine ih _ (h v hv) fun r' => ?_
      -- how long requests take is a matter of the surroundings, and these stay
      obtain ⟨ms, -, rfl⟩ := hv
      rw [World.latency_eq (World.answer_around _ r)]
      exact hw r'
    by_cases hl : w.latency r = 0
    · obtain ⟨ts, hts⟩ := step w ⟨0, hl ▸ hw r, rfl⟩
      rw [runBeside, if_pos hl]
      exact ⟨_, hts⟩
    · obtain ⟨ts, hts⟩ := step { w with clock := w.clock + w.latency r } ⟨_, hw r, rfl⟩
      have hidle : Machine.idle.advance w.clock (w.clock + w.latency r) () w =
          ((), { w with clock := w.clock + w.latency r }) := by
        rw [Machine.advance]
        rfl
      rw [runBeside, if_neg hl, hidle]
      exact ⟨_, hts⟩

end DownloadTriage
