import DownloadTriage.Proofs.Files
import DownloadTriage.Proofs.Requests

/-!
# A locator that is shared

Any number of callers use one locator: they resolve, give up what is in use, upload and send
heartbeats. They meet at their requests, and their turns come in any order. What every turn of a
caller keeps to (`Locator.Decent`) rests on what all of them keep (`Locator.Sound`), and keeps it.

* `Locator.Call.program_keeps`: every call keeps to decent turns among others that do.
* `Traffic.step_orderly`: the callers stay so through every step.
* `Traffic.play_sound`: what is in use, what a resolution returns and what is recorded.
* `Traffic.leads_start`, `Traffic.leads_resume`: fibers take such turns.
-/

namespace DownloadTriage

/-! ## Among others -/

/-- What was done stays done. -/
def World.Before (w v : World) : Prop := w.deeds <+: v.deeds

namespace World.Before

variable {w v u : World}

theorem refl (w : World) : w.Before w := List.prefix_rfl

theorem trans (h : w.Before v) (h' : v.Before u) : w.Before u := List.IsPrefix.trans h h'

theorem answer (w : World) (r : Request) : w.Before (w.answer r).2 := by
  obtain ⟨ds, h⟩ := w.answer_deeds r
  exact ⟨ds, h.symm⟩

end World.Before

namespace Program

variable {α β : Type} {I : World → Prop} {G : Turn → Prop} {w v : World}

/-- Others may act before every turn and keep `I`; the program keeps its turns to `G`, and in the end
the result is as said. -/
def Keeps (I : World → Prop) (G : Turn → Prop) : Program α → World → (World → α → Prop) → Prop
  | done a, w, R => R w a
  | ask r next, w, R => ∀ v : World, w.Before v → I v →
      G ⟨v, r⟩ ∧ (next (v.answer r).1).Keeps I G (v.answer r).2 R

theorem Keeps.mono {p : Program α} {R S : World → α → Prop} (h : p.Keeps I G w R)
    (hR : ∀ v a, R v a → S v a) : p.Keeps I G w S := by
  induction p generalizing w with
  | done a => exact hR _ _ h
  | ask r next ih => exact fun v hv hI => ⟨(h v hv hI).1, ih _ (h v hv hI).2⟩

/-- **One program after another.** -/
theorem keeps_bind (p : Program α) (f : α → Program β) (R : World → β → Prop) :
    (p >>= f).Keeps I G w R ↔ p.Keeps I G w fun v a => (f a).Keeps I G v R := by
  show (p.bind f).Keeps I G w R ↔ _
  induction p generalizing w with
  | done a => rfl
  | ask r next ih =>
    exact forall_congr' fun v => forall_congr' fun _ => forall_congr' fun _ =>
      and_congr_right fun _ => ih _

theorem keeps_request (r : Request) (R : World → Reply r → Prop) :
    (request r).Keeps I G w R ↔ ∀ v : World, w.Before v → I v →
      G ⟨v, r⟩ ∧ R (v.answer r).2 (v.answer r).1 := Iff.rfl

theorem keeps_log (l : LogLine) (R : World → Unit → Prop) :
    (log l).Keeps I G w R ↔ ∀ v : World, w.Before v → I v →
      G ⟨v, .log l⟩ ∧ R (v.mark (.logged l)) () := Iff.rfl

theorem Only.keeps {kind : Request → Prop} {p : Program α} (h : p.Only kind)
    (hG : ∀ t : Turn, kind t.request → G t) : p.Keeps I G w fun _ _ => True := by
  induction p generalizing w with
  | done a => trivial
  | ask r next ih => exact fun v _ _ => ⟨hG ⟨v, r⟩ h.1, ih _ (h.2 _)⟩

/-- A program that waits does not mind what others do. -/
theorem Keeps.later {p : Program α} {R : World → α → Prop} (h : p.Keeps I G w R)
    (hwv : w.Before v) (hR : ∀ a, R w a → R v a) : p.Keeps I G v R := by
  cases p with
  | done a => exact hR a h
  | ask r next => exact fun u hu hI => h u (hwv.trans hu) hI

end Program

/-! ## What is known of collectors -/

/-- The URL is that of a candidate that answered a probe. -/
def World.Answered (w : World) (url : String) : Prop :=
  ∃ c, url = stripSlash c ∧ Deed.probed c true ∈ w.deeds

theorem World.Answered.later {w v : World} {url : String} (h : w.Answered url) (hv : w.Before v) :
    v.Answered url := by
  obtain ⟨c, hc, hd⟩ := h
  exact ⟨c, hc, List.IsPrefix.subset hv hd⟩

namespace Locator

variable {l : Locator} {origin : FileTree} {w v : World} {url : String}

/-- The URL is the fallback, or that of a candidate that answered a probe. -/
def Known (l : Locator) (w : World) (url : String) : Prop := url = l.fallback ∨ w.Answered url

theorem Known.later (h : l.Known w url) (hv : w.Before v) : l.Known v url :=
  h.imp_right fun h => h.later hv

/-- A turn uses and posts to a known collector, and records one that answered a probe, where the
locator keeps its record. -/
def Decent (l : Locator) (t : Turn) : Prop :=
  match t.request with
  | .use url => ∀ u ∈ url, l.Known t.world u
  | .record path url => path = l.record ∧ t.world.Answered url
  | .post p => ∃ base, l.Known t.world base ∧
      (p.url = base ++ "/api/submit-scan" ∨ p.url = base ++ "/api/clients/heartbeat")
  | _ => True

/-- The record is as it was at first, or that of a collector that answered a probe. -/
def Recorded (l : Locator) (origin : FileTree) (w : World) : Prop :=
  ∀ p, l.record = some p → w.files.content p = origin.content p ∨
    ∃ url, w.Answered url ∧ w.files.content p = .ok (.bytes (LastKnown.encode url).toArray)

theorem Recorded.later (h : l.Recorded origin w) (hv : w.Before v) (hf : v.files = w.files) :
    l.Recorded origin v := by
  intro p hp
  rw [hf]
  rcases h p hp with hc | ⟨url, ha, hc⟩
  · exact .inl hc
  · exact .inr ⟨url, ha.later hv, hc⟩

/-- **To record a collector that answered** leaves its record, or what there was. -/
theorem Recorded.record (h : l.Recorded origin w) (ha : w.Answered url) :
    l.Recorded origin (w.answer (.record l.record url)).2 := by
  have hb : w.Before (w.answer (.record l.record url)).2 := .answer ..
  intro p hp
  have hfiles : (w.answer (.record l.record url)).2.files =
      (LastKnown.save w.files url (some p)).1 := by rw [← hp]; rfl
  rcases LastKnown.content_save w.files url p with hs | hs
  · exact h.later hb (hfiles.trans hs) p hp
  · exact .inr ⟨url, ha.later hb, by rw [hfiles, hs]⟩

/-- What all keep: the collector in use is a known one, and the record in order. -/
structure Sound (l : Locator) (origin : FileTree) (w : World) : Prop where
  used : ∀ url ∈ w.endpoint, l.Known w url
  recorded : l.Recorded origin w

theorem sound_begin (l : Locator) (around : Surroundings) (files : FileTree) :
    l.Sound files (World.begin around files) where
  used _ h := nomatch h
  recorded _ _ := .inl rfl

/-- Where the collector in use and the files stay, more deeds do no harm. -/
theorem Sound.later (h : l.Sound origin w) (hv : w.Before v) (he : v.endpoint = w.endpoint)
    (hf : v.files = w.files) : l.Sound origin v where
  used url hu := (h.used url (he ▸ hu)).later hv
  recorded := h.recorded.later hv hf

/-- **A decent turn keeps what all keep.** -/
theorem Sound.turn {t : Turn} (h : l.Sound origin t.world) (ht : l.Decent t) :
    l.Sound origin t.after := by
  obtain ⟨w, r⟩ := t
  have hb : w.Before (w.answer r).2 := .answer w r
  cases r with
  | use url => exact ⟨fun u hu => (ht u hu).later hb, h.recorded.later hb rfl⟩
  | record path url =>
    obtain ⟨rfl, ha⟩ := ht
    exact ⟨fun u hu => (h.used u hu).later hb, h.recorded.record ha⟩
  | _ => exact h.later hb rfl rfl

/-! ## What callers keep to -/

open Program

theorem decent_of_queries {t : Turn} (h : t.request.queries = true) : l.Decent t := by
  obtain ⟨w, r⟩ := t
  cases r <;> trivial

theorem firstHealthy_keeps (l : Locator) (cs : List String) :
    (firstHealthy cs).Keeps (l.Sound origin) l.Decent w fun v found =>
      ∀ c ∈ found, Deed.probed c true ∈ v.deeds := by
  induction cs generalizing w with
  | nil => exact fun c hc => nomatch hc
  | cons c cs ih =>
    unfold firstHealthy
    rw [keeps_bind, keeps_request]
    intro v hv hI
    refine ⟨trivial, ?_⟩
    by_cases hok : (v.answer (.probe c)).1 = true
    · rw [if_pos hok]
      rintro d ⟨⟩
      have hd : (v.answer (.probe c)).2.deeds =
          v.deeds ++ [.probed c (v.answer (.probe c)).1] := World.deeds_mark ..
      rw [hd, hok]
      exact List.mem_append_right _ (List.mem_singleton_self _)
    · rw [if_neg hok]
      exact ih

theorem adopt_keeps (l : Locator) (via : String) {c : String}
    (hc : Deed.probed c true ∈ w.deeds) :
    (l.adopt via c).Keeps (l.Sound origin) l.Decent w fun v url => l.Known v url := by
  have ha : w.Answered (stripSlash c) := ⟨c, rfl, hc⟩
  unfold adopt
  dsimp only
  rw [keeps_bind, keeps_log]
  intro v₁ h₁ _
  refine ⟨trivial, ?_⟩
  rw [keeps_bind, keeps_request]
  intro v₂ h₂ _
  have ha₂ := (ha.later (h₁.trans (.answer v₁ (.log _)))).later h₂
  refine ⟨fun u hu => Option.mem_some.1 hu ▸ .inr ha₂, ?_⟩
  rw [keeps_bind, keeps_request]
  intro v₃ h₃ _
  have ha₃ := (ha₂.later (.answer v₂ (.use _))).later h₃
  exact ⟨⟨rfl, ha₃⟩, .inr (ha₃.later (.answer ..))⟩

theorem search_keeps (l : Locator) (rs : List Resolver) :
    (l.search rs).Keeps (l.Sound origin) l.Decent w fun v url => l.Known v url := by
  induction rs generalizing w with
  | nil =>
    unfold search
    rw [keeps_bind, keeps_log]
    intro v₁ _ _
    refine ⟨trivial, ?_⟩
    rw [keeps_bind, keeps_request]
    exact fun v₂ _ _ => ⟨fun u hu => .inl (Option.mem_some.1 hu).symm, .inl rfl⟩
  | cons r rs ih =>
    unfold search
    rw [keeps_bind]
    refine ((r.candidates_only l.record).keeps fun t ht => decent_of_queries ht).mono fun v cs _ => ?_
    rw [keeps_bind]
    refine (l.firstHealthy_keeps cs).mono fun v found hfound => ?_
    cases found with
    | none => exact ih
    | some c => exact l.adopt_keeps r.name (hfound c rfl)

/-- **A resolution returns a known collector.** -/
theorem resolve_keeps (l : Locator) :
    l.resolve.Keeps (l.Sound origin) l.Decent w fun v url => l.Known v url := by
  unfold resolve
  rw [keeps_bind, keeps_request]
  intro v _ hI
  refine ⟨trivial, ?_⟩
  dsimp only [World.answer]
  cases he : v.endpoint with
  | none => exact l.search_keeps l.resolvers
  | some url => exact hI.used url he

end Locator

namespace Client

open Program

variable {c : Client} {origin : FileTree} {w : World}

theorem attempt_keeps (c : Client) (body : Json) (number : Nat) :
    (c.attempt body number).Keeps (c.locator.Sound origin) c.locator.Decent w
      fun _ _ => True := by
  unfold attempt
  rw [keeps_bind]
  refine c.locator.resolve_keeps.mono fun v base hbase => ?_
  rw [keeps_bind, keeps_log]
  intro v₁ h₁ _
  refine ⟨trivial, ?_⟩
  rw [keeps_bind, keeps_request]
  intro v₂ h₂ _
  refine ⟨⟨base, (hbase.later (h₁.trans (.answer v₁ (.log _)))).later h₂, .inl rfl⟩, ?_⟩
  rw [keeps_bind, keeps_log]
  exact fun _ _ _ => ⟨trivial, trivial⟩

theorem upload_keeps (c : Client) (body : Json) (left : Nat) :
    (c.upload body left).Keeps (c.locator.Sound origin) c.locator.Decent w fun _ _ => True := by
  induction left generalizing w with
  | zero =>
    unfold upload
    rw [keeps_bind, keeps_log]
    exact fun _ _ _ => ⟨trivial, trivial⟩
  | succ left ih =>
    unfold upload
    dsimp only
    rw [keeps_bind]
    refine (c.attempt_keeps body _).mono fun v reply _ => ?_
    split
    · trivial
    · rw [keeps_bind]
      unfold Locator.invalidate
      rw [keeps_request]
      intro v₁ _ _
      refine ⟨fun u hu => (nomatch hu), ?_⟩
      split
      · rw [keeps_bind, keeps_log]
        intro v₂ _ _
        refine ⟨trivial, ?_⟩
        rw [keeps_bind, keeps_request]
        exact fun v₃ _ _ => ⟨trivial, ih⟩
      · exact ih

theorem submit_keeps (c : Client) (r : Report) :
    (c.submit r).Keeps (c.locator.Sound origin) c.locator.Decent w fun _ _ => True := by
  unfold submit
  rw [keeps_bind, keeps_request]
  exact fun v _ _ => ⟨trivial, c.upload_keeps _ maxAttempts⟩

theorem heartbeat_keeps (c : Client) (reason : String) :
    (c.heartbeat reason).Keeps (c.locator.Sound origin) c.locator.Decent w fun _ _ => True := by
  unfold heartbeat
  rw [keeps_bind]
  refine c.locator.resolve_keeps.mono fun v base hbase => ?_
  rw [keeps_bind, keeps_request]
  intro v₁ h₁ _
  refine ⟨⟨base, hbase.later h₁, .inr rfl⟩, ?_⟩
  rw [keeps_bind, keeps_log]
  exact fun _ _ _ => ⟨trivial, trivial⟩

end Client

/-! ## Callers -/

/-- What is left of the program of a fiber. -/
def Fiber.rest {α : Type} : Fiber α → Program α
  | finished a => .done a
  | waiting _ r next => .ask r next

/-- What is asked of a locator that is shared. -/
inductive Locator.Call where
  | resolve
  | invalidate
  | upload (identity : Identity) (r : Report)
  | heartbeat (identity : Identity) (reason : String)

open Program in
/-- The program of a call; a resolution returns its URL. -/
def Locator.Call.program (l : Locator) : Call → Program (Option String)
  | resolve => do return some (← l.resolve)
  | invalidate => do
    Locator.invalidate
    return none
  | upload i r => do
    let _ ← Client.submit ⟨i, l⟩ r
    return none
  | heartbeat i reason => do
    let _ ← Client.heartbeat ⟨i, l⟩ reason
    return none

open Program in
/-- **Every call keeps to decent turns**, and returns a known collector if any. -/
theorem Locator.Call.program_keeps (c : Call) (l : Locator) {origin : FileTree} {w : World} :
    (c.program l).Keeps (l.Sound origin) l.Decent w fun v found =>
      ∀ url ∈ found, l.Known v url := by
  cases c with
  | resolve =>
    unfold program
    rw [keeps_bind]
    exact l.resolve_keeps.mono fun v url h u hu => Option.mem_some.1 hu ▸ h
  | invalidate => exact fun v _ _ => ⟨fun u hu => (nomatch hu), fun u hu => (nomatch hu)⟩
  | upload i r =>
    unfold program
    rw [keeps_bind]
    exact (Client.submit_keeps ⟨i, l⟩ r).mono fun _ _ _ u hu => (nomatch hu)
  | heartbeat i reason =>
    unfold program
    rw [keeps_bind]
    exact (Client.heartbeat_keeps ⟨i, l⟩ reason).mono fun _ _ _ u hu => (nomatch hu)

/-- Those who share a locator: what is left of their programs, the turns they took so far, and the
world between them. -/
structure Traffic where
  callers : List (Program (Option String))
  turns : List Turn
  world : World

namespace Traffic

/-- What happens next. -/
inductive Step where
  /-- Somebody calls. -/
  | call (c : Locator.Call)
  /-- It is a caller's turn. -/
  | turn (i : Nat)
  /-- A caller is given up. -/
  | drop (i : Nat)
  /-- Time passes. -/
  | pass (ms : Nat)

/-- Nobody has called yet. -/
def begin (around : Surroundings) (files : FileTree) : Traffic := ⟨[], [], .begin around files⟩

/-- One step. -/
def step (l : Locator) (t : Traffic) : Step → Traffic
  | .call c => { t with callers := t.callers ++ [c.program l] }
  | .turn i =>
    match t.callers[i]? with
    | some (.ask r next) =>
      ⟨t.callers.set i (next (t.world.answer r).1), t.turns ++ [⟨t.world, r⟩],
        (t.world.answer r).2⟩
    | _ => t
  | .drop i => { t with callers := t.callers.eraseIdx i }
  | .pass ms => { t with world := { t.world with clock := t.world.clock + ms } }

/-- Steps, one after the other. -/
def play (l : Locator) (t : Traffic) (steps : List Step) : Traffic := steps.foldl (step l) t

/-- All that was done was decent, and what the callers have still to do will be. -/
structure Orderly (l : Locator) (origin : FileTree) (t : Traffic) : Prop where
  sound : l.Sound origin t.world
  decent : ∀ u ∈ t.turns, l.Decent u
  callers : ∀ p ∈ t.callers, p.Keeps (l.Sound origin) l.Decent t.world fun v found =>
    ∀ url ∈ found, l.Known v url

variable {l : Locator} {origin : FileTree} {t : Traffic}

theorem Orderly.call (h : t.Orderly l origin) (c : Locator.Call) :
    (t.step l (.call c)).Orderly l origin :=
  ⟨h.sound, h.decent, fun p hp => (List.mem_append.1 hp).elim (h.callers p) fun hc =>
    List.mem_singleton.1 hc ▸ c.program_keeps l⟩

theorem Orderly.turn (h : t.Orderly l origin) (i : Nat) : (t.step l (.turn i)).Orderly l origin := by
  unfold step
  dsimp only
  split
  · rename_i r next hi
    obtain ⟨hd, hnext⟩ := h.callers _ (List.mem_of_getElem? hi) t.world (.refl _) h.sound
    refine ⟨h.sound.turn hd, ?_, fun p hp => ?_⟩
    · exact List.forall_mem_append.2 ⟨h.decent, List.forall_mem_singleton.2 hd⟩
    · -- the others were not asked, and do not mind
      rcases List.mem_or_eq_of_mem_set hp with hp | rfl
      · exact (h.callers p hp).later (.answer ..) fun found hf url hu =>
          (hf url hu).later (.answer ..)
      · exact hnext
  · exact h

theorem step_orderly (h : t.Orderly l origin) (s : Step) : (t.step l s).Orderly l origin := by
  cases s with
  | call c => exact h.call c
  | turn i => exact h.turn i
  | drop i => exact ⟨h.sound, h.decent, fun p hp => h.callers p (List.mem_of_mem_eraseIdx hp)⟩
  | pass ms =>
    have hb : t.world.Before { t.world with clock := t.world.clock + ms } := .refl t.world
    exact ⟨h.sound.later hb rfl rfl, h.decent, fun p hp => (h.callers p hp).later hb
      fun found hf url hu => (hf url hu).later hb⟩

theorem play_orderly (h : t.Orderly l origin) (steps : List Step) :
    (t.play l steps).Orderly l origin := by
  induction steps generalizing t with
  | nil => exact h
  | cons s steps ih => exact ih (step_orderly h s)

/-! ## Fibers among callers -/

/-- Among any others, turns of one caller alone lead from one program and world to another. -/
def Leads (l : Locator) (p : Program (Option String)) (w : World) (q : Program (Option String))
    (w' : World) : Prop :=
  ∀ front back turns, ∃ n ts, Taken w ts w' ∧
    play l ⟨front ++ p :: back, turns, w⟩ (List.replicate n (.turn front.length)) =
      ⟨front ++ q :: back, turns ++ ts, w'⟩

variable {p q : Program (Option String)} {w w' : World}

theorem Leads.refl (l : Locator) (p : Program (Option String)) (w : World) : Leads l p w p w :=
  fun _ _ _ => ⟨0, [], rfl, by rw [List.append_nil]; rfl⟩

/-- One turn, and those after it. -/
theorem Leads.turn {r : Request} {next : Reply r → Program (Option String)}
    (h : Leads l (next (w.answer r).1) (w.answer r).2 q w') : Leads l (.ask r next) w q w' := by
  intro front back turns
  obtain ⟨n, ts, ht, hp⟩ := h front back (turns ++ [⟨w, r⟩])
  have hstep : step l ⟨front ++ .ask r next :: back, turns, w⟩ (.turn front.length) =
      ⟨front ++ next (w.answer r).1 :: back, turns ++ [⟨w, r⟩], (w.answer r).2⟩ := by
    simp [step]
  refine ⟨n + 1, ⟨w, r⟩ :: ts, ⟨rfl, ht⟩, ?_⟩
  rw [List.replicate_succ, play, List.foldl_cons, hstep, List.append_cons turns _ ts]
  exact hp

/-- **A program that starts** takes its turns among the others. -/
theorem leads_start (l : Locator) (p : Program (Option String)) (w : World) :
    Leads l p w (p.start w).1.rest (p.start w).2 := by
  induction p generalizing w with
  | done a => exact .refl l _ w
  | ask r next ih =>
    by_cases hl : w.latency r = 0
    · rw [Program.start, if_pos hl]
      exact (ih _ _).turn
    · rw [Program.start, if_neg hl]
      exact .refl l _ w

/-- **A fiber that goes on** takes its turns among the others. -/
theorem leads_resume (l : Locator) (f : Fiber (Option String)) (w : World) :
    Leads l f.rest w (f.resume w).1.rest (f.resume w).2 := by
  cases f with
  | finished a => exact .refl l _ w
  | waiting wake r next =>
    by_cases hw : wake ≤ w.clock
    · rw [Fiber.resume, if_pos hw]
      exact (leads_start l _ _).turn
    · rw [Fiber.resume, if_neg hw]
      exact .refl l _ w

/-! ## What a shared locator comes to -/

/-- **A shared locator**, whatever its callers do and in which order: the collector in use is the
fallback or one that answered a probe, and so is every URL that a resolution returned. The record is
as it was at first, or that of one that answered a probe; nothing else was ever handed over to be
recorded. -/
theorem play_sound (l : Locator) (around : Surroundings) (files : FileTree) (steps : List Step) :
    let t := (begin around files).play l steps
    (∀ url, t.world.endpoint = some url → l.Known t.world url) ∧
    (∀ url, Program.done (some url) ∈ t.callers → l.Known t.world url) ∧
    (∀ p, l.record = some p → t.world.files.content p = files.content p ∨
      ∃ url, t.world.Answered url ∧
        t.world.files.content p = .ok (.bytes (LastKnown.encode url).toArray)) ∧
    ∀ u ∈ t.turns, l.Decent u := by
  have h : ((begin around files).play l steps).Orderly l files :=
    play_orderly ⟨l.sound_begin around files, by simp [begin], by simp [begin]⟩ steps
  exact ⟨h.sound.used, fun url hd => h.callers _ hd url rfl, h.sound.recorded, h.decent⟩

end Traffic

end DownloadTriage
