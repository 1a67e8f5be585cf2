import DownloadTriage.Proofs.Order
import DownloadTriage.Proofs.Tale

/-!
# What a run tells

Along a run the tale goes on with every step: a file that is asked for is announced, the part of the
task under way grows with its turns, and a part is closed when its task leaves the slot.

* `Run.Step.told`: how one step goes on with the tale.
* `Run.play_told`: what a whole run told.
-/

namespace DownloadTriage

/-! ## Worlds that tell -/

/-- On the way from one world to the other listeners are told the events. -/
structure World.Tells (w : World) (es : List Event) (w' : World) : Prop where
  around : w'.around = w.around
  deeds : ∃ ds, w'.deeds = w.deeds ++ ds ∧ eventsOf ds = es

namespace World

variable {w w' w'' : World} {es fs : List Event}

theorem Calm.tells (h : Calm w w') : w.Tells [] w' := by
  obtain ⟨ds, hds, hm⟩ := h.deeds
  exact ⟨h.around, ds, hds, eventsOf_of_calm hm⟩

theorem tells_mark (w : World) (e : Event) : w.Tells [e] (w.mark (.emitted e)) :=
  ⟨rfl, [.emitted e], deeds_mark w _, rfl⟩

theorem tells_taken {ts : List Turn} (h : Taken w ts w') :
    w.Tells (eventsOf (deedsOf ts)) w' := ⟨h.around.1, deedsOf ts, h.deeds, rfl⟩

theorem Tells.trans (h : w.Tells es w') (h' : w'.Tells fs w'') : w.Tells (es ++ fs) w'' := by
  obtain ⟨ds, hds, rfl⟩ := h.deeds
  obtain ⟨es, hes, rfl⟩ := h'.deeds
  refine ⟨h'.around.trans h.around, ds ++ es, ?_, eventsOf_append ..⟩
  rw [hes, hds, List.append_assoc]

end World

namespace Run

/-- What is announced when the loop begins. -/
def greeting (o : Outset) : List Event := (o.watcher.map fun x => .ready x.dir).toList

/-- First the greeting, last the end, and in between files that are asked for and parts of
blocks. -/
def Shape (greeting : List Event) (begun ended : Bool) (es : List Event) : Prop :=
  ∃ middle, es = (if begun then greeting else []) ++ middle ++ (if ended then [.shutdown] else []) ∧
    ∀ e ∈ middle, e.isPart = true ∨ e.asks.isSome = true

/-- The part of the task that is not over: of the one under way, or of the one given up. -/
inductive Last (s : Surroundings) (l : Pipeline) (seen : FileTree → Prop) :
    Option TaskRun → Option ScanTask → List (List Event) → Prop where
  | nothing : Last s l seen none none []
  | underway {t : TaskRun} {is ps ss : List Turn} (hf : t.Follows s l is ps ss)
      (hs : ∀ u ∈ is, seen u.world.files) :
      Last s l seen (some t) none [eventsOf (deedsOf ss)]
  | givenUp {task : ScanTask} {result : Option Report} {es block : List Event}
      (hb : IsBlock task result block) (hp : es <+: block) :
      Last s l seen none (some task) [es]

/-- What a run told so far, as a tale of the blocks of its tasks. -/
structure Told (o : Outset) (seen : FileTree → Prop) (r : Run) (blocks last : List (List Event))
    (es : List Event) : Prop where
  setup : r.service.setup = o.setup
  dir : r.service.begun = false → r.service.watcher.map (·.dir) = o.watcher.map (·.dir)
  fresh : r.service.begun = false → es = []
  world : o.world.Tells es r.world
  shape : Shape (greeting o) r.service.begun r.service.ended es
  whole : List.Forall₂ (fun e b => Block seen e.1 e.2 b) r.ledger.finished blocks
  slot : Last o.world.around o.setup.pipeline seen r.service.agent.running r.ledger.givenUp last
  tale : Tale r.ledger.asked (blocks ++ last) es

theorem start_told (o : Outset) (seen : FileTree → Prop) : (start o).Told o seen [] [] [] where
  setup := rfl
  dir _ := rfl
  fresh _ := rfl
  world := ⟨rfl, [], by simp [start], rfl⟩
  shape := ⟨[], rfl, by simp⟩
  whole := .nil
  slot := .nothing
  tale := .nil

/-! ## How the parts of a told run change -/

variable {o : Outset} {seen seen' : FileTree → Prop} {files : FileTree} {r r' : Run}
  {blocks last : List (List Event)} {es more : List Event}

theorem Last.mono {s : Surroundings} {l : Pipeline} {running : Option TaskRun}
    {givenUp : Option ScanTask} (h : Last s l seen running givenUp last)
    (hs : ∀ t, seen t → seen' t) : Last s l seen' running givenUp last := by
  cases h with
  | nothing => exact .nothing
  | underway hf hi => exact .underway hf fun u hu => hs _ (hi u hu)
  | givenUp hb hp => exact .givenUp hb hp

theorem Told.mono (h : r.Told o seen blocks last es) (hs : ∀ t, seen t → seen' t) :
    r.Told o seen' blocks last es :=
  { h with
    whole := h.whole.imp fun _ _ hb => hb.mono hs
    slot := h.slot.mono hs }

theorem Shape.middle {g : List Event} (h : Shape g true false es)
    (hm : ∀ e ∈ more, e.isPart = true ∨ e.asks.isSome = true) :
    Shape g true false (es ++ more) := by
  obtain ⟨middle, rfl, hmid⟩ := h
  refine ⟨middle ++ more, by simp, fun e he => ?_⟩
  rcases List.mem_append.1 he with he | he
  · exact hmid e he
  · exact hm e he

/-- As many parts as tasks were begun. -/
theorem Told.length (h : r.Told o seen blocks last es) (ho : r.Orderly) :
    (blocks ++ last).length = r.ledger.begun.length := by
  have hw := h.whole.length_eq
  have hl := h.slot
  rw [ho.begun, inSlot]
  generalize r.service.agent.running = running at *
  generalize r.ledger.givenUp = givenUp at *
  cases hl <;> simp [hw]

theorem Told.length_le (h : r.Told o seen blocks last es) (ho : r.Orderly) :
    (blocks ++ last).length ≤ r.ledger.asked.length := by
  rw [h.length ho, ho.asked, List.length_append]
  omega

/-- A step that tells nothing and leaves the slot as it is. -/
theorem Told.silent (h : r.Told o seen blocks last es) {s : Service} {w : World}
    (hs : s.setup = r.service.setup ∧ s.begun = r.service.begun ∧ s.ended = r.service.ended ∧
      s.watcher.map (·.dir) = r.service.watcher.map (·.dir))
    (ha : s.agent.running = r.service.agent.running) (hw : r.world.Calm w) :
    Told o seen ⟨s, w, r.ledger⟩ blocks last es where
  setup := hs.1.trans h.setup
  dir hb := hs.2.2.2.trans (h.dir (hs.2.1 ▸ hb))
  fresh hb := h.fresh (hs.2.1 ▸ hb)
  world := by
    have := h.world.trans hw.tells
    rwa [List.append_nil] at this
  shape := by
    show Shape _ s.begun s.ended es
    rw [hs.2.1, hs.2.2.1]
    exact h.shape
  whole := h.whole
  slot := by
    show Last _ _ _ s.agent.running _ _
    rw [ha]
    exact h.slot
  tale := h.tale

/-- The task under way is over, and its part is a whole block. -/
theorem Told.settle (h : r.Told o seen blocks last es) (hx : r.Exits) {t : TaskRun}
    {result : Option Report} (ht : r.service.agent.running = some t)
    (hr : t.result? = some result) :
    ∃ blocks', Told o seen
      ⟨{ r.service with agent := { r.service.agent with running := none } }, r.world,
        { r.ledger with finished := r.ledger.finished ++ [(t.task, result)] }⟩ blocks' [] es := by
  have hl := h.slot
  have hg := hx.kept_running ht
  rw [ht, hg] at hl
  cases hl with
  | @underway _ is ps ss hf hs =>
    refine ⟨blocks ++ [eventsOf (deedsOf ss)], { h with whole := ?_, slot := ?_, tale := ?_ }⟩
    · exact List.rel_append h.whole (.cons (hf.block hs hr) .nil)
    · dsimp only
      rw [hg]
      exact .nothing
    · rw [List.append_nil]
      exact h.tale

/-- The task under way is given up, and its part is the beginning of a block. -/
theorem Told.giveUp (h : r.Told o seen blocks last es) (hx : r.Exits) {t : TaskRun}
    (ht : r.service.agent.running = some t) :
    Told o seen
      ⟨{ r.service with agent := { r.service.agent with running := none } }, r.world,
        { r.ledger with givenUp := some t.task }⟩ blocks last es := by
  have hl := h.slot
  rw [ht, hx.kept_running ht] at hl
  cases hl with
  | underway hf hs =>
    obtain ⟨result, block, hb, hp⟩ := hf.block_prefix
    exact { h with slot := .givenUp hb hp }

theorem greet_tells (s : Service) (w : World) :
    w.Tells (s.watcher.map fun x => .ready x.dir).toList (s.greet w) := by
  unfold Service.greet
  cases s.watcher with
  | none => exact (World.Calm.refl w).tells
  | some x => exact w.tells_mark _

theorem finish_tells (s : Service) (w : World) : w.Tells [.shutdown] (s.finish w).2 := by
  unfold Service.finish
  dsimp only
  split
  · exact (World.Calm.say w _).tells.trans (World.tells_mark ..)
  · exact w.tells_mark _

/-- The greeting begins the tale. -/
theorem Told.greet (h : r.Told o seen blocks last es) (ho : r.Orderly)
    (hb : r.service.begun = false) :
    Told o seen ⟨{ r.service with begun := true }, r.service.greet r.world, r.ledger⟩ blocks last
      (greeting o) := by
  obtain rfl := h.fresh hb
  have hw := h.world.trans (greet_tells r.service r.world)
  have hd : (r.service.watcher.map fun x => Event.ready x.dir) =
      o.watcher.map fun x => .ready x.dir := by
    have := congrArg (Option.map Event.ready) (h.dir hb)
    simpa [Option.map_map, Function.comp_def] using this
  rw [List.nil_append, hd] at hw
  -- nothing was told yet, so not the end either
  have he : r.service.ended = false := by
    obtain ⟨middle, hm, -⟩ := h.shape
    cases he : r.service.ended with
    | false => rfl
    | true => simp [he] at hm
  have hg : announced (greeting o) = [] ∧ scanned (greeting o) = [] := by
    unfold greeting
    cases o.watcher <;> exact ⟨rfl, rfl⟩
  refine ⟨h.setup, (nomatch ·), (nomatch ·), hw, ⟨[], ?_, by simp⟩, h.whole, h.slot, ?_⟩
  · simp [he]
  · have ht := h.tale.aside hg.2 (h.length_le ho)
    rw [hg.1, List.append_nil] at ht
    exact ht

/-- A file that is asked for is announced. -/
theorem Told.ask (h : r.Told o seen blocks last es) (ho : r.Orderly)
    (hb : r.service.begun = true) (he : r.service.ended = false) (task : ScanTask)
    (line : LogLine) (a : Agent) (ha : a.running = r.service.agent.running) :
    Told o seen
      ⟨{ r.service with agent := a },
        (r.world.say [line]).mark (.emitted (.scanStarted task.filename task.path task.manual)),
        { r.ledger with asked := r.ledger.asked ++ [task] }⟩
      blocks last (es ++ [.scanStarted task.filename task.path task.manual]) where
  setup := h.setup
  dir := h.dir
  fresh hb' := by
    rw [show r.service.begun = false from hb'] at hb
    cases hb
  world := h.world.trans ((World.Calm.say r.world _).tells.trans (World.tells_mark ..))
  shape := by
    have hs := h.shape
    rw [hb, he] at hs
    show Shape _ r.service.begun r.service.ended _
    rw [hb, he]
    refine hs.middle fun e he => .inr ?_
    rw [List.mem_singleton.1 he]
    rfl
  whole := h.whole
  slot := by
    show Last _ _ _ a.running _ _
    rw [ha]
    exact h.slot
  tale := by
    have hs : scanned [.scanStarted task.filename task.path task.manual] = [] := rfl
    exact h.tale.aside hs (h.length_le ho)

/-- The end is told last. -/
theorem Told.finish (h : r.Told o seen blocks last es) (ho : r.Orderly)
    (hb : r.service.begun = true) (he : r.service.ended = false) :
    Told o seen ⟨(r.service.finish r.world).1, (r.service.finish r.world).2, r.ledger⟩ blocks last
      (es ++ [.shutdown]) where
  setup := h.setup
  dir hb' := by
    rw [show r.service.begun = false from hb'] at hb
    cases hb
  fresh hb' := by
    rw [show r.service.begun = false from hb'] at hb
    cases hb
  world := h.world.trans (finish_tells ..)
  shape := by
    obtain ⟨middle, rfl, hm⟩ := h.shape
    refine ⟨middle, ?_, hm⟩
    rw [he]
    show _ = (if r.service.begun = true then _ else _) ++ _ ++ [Event.shutdown]
    simp
  whole := h.whole
  slot := h.slot
  tale := by
    have hs : scanned [Event.shutdown] = [] := rfl
    have ha : announced [Event.shutdown] = [] := rfl
    have ht := h.tale.aside hs (h.length_le ho)
    rw [ha, List.append_nil] at ht
    exact ht

/-- The loop was left, and what was in the slot is over or given up. -/
theorem Told.leave (h : r.Told o seen blocks last es) (hx : r.Exits) :
    ∃ blocks' last', Told o seen
      ⟨(r.service.letGo r.world).1, (r.service.letGo r.world).2,
        r.ledger.slot r.service.agent.running none⟩ blocks' last' es := by
  have hcalm := World.Calm.say r.world r.service.agent.leftoverLines
  cases ht : r.service.agent.running with
  | none => exact ⟨_, _, h.silent ⟨rfl, rfl, rfl, rfl⟩ ht.symm hcalm⟩
  | some t =>
    dsimp only [Ledger.slot]
    cases hr : t.result? with
    | some result =>
      obtain ⟨blocks', h'⟩ := h.settle hx ht hr
      exact ⟨_, _, h'.silent ⟨rfl, rfl, rfl, rfl⟩ rfl hcalm⟩
    | none => exact ⟨_, _, (h.giveUp hx ht).silent ⟨rfl, rfl, rfl, rfl⟩ rfl hcalm⟩

theorem isPart_of_follows {s : Surroundings} {l : Pipeline} {t : TaskRun} {is ps ss ss' : List Turn}
    (h : t.Follows s l is ps (ss ++ ss')) : ∀ e ∈ eventsOf (deedsOf ss'), e.isPart = true := by
  obtain ⟨result, block, hb, ⟨rest, hp⟩⟩ := h.block_prefix
  intro e he
  refine hb.parts e ?_
  rw [← hp, deedsOf_append, eventsOf_append]
  simp [he]

/-- The turns of an inspection see the files as they stand before them. -/
theorem inspection_sees {s : Surroundings} {l : Pipeline} {t : TaskRun}
    {is is' ps ps' ss ss' : List Turn} {w w' : World}
    (h : t.Follows s l (is ++ is') ps ss) (ht : Taken w (is' ++ ps' ++ ss') w')
    (hi : ∀ u ∈ is, seen u.world.files) (hw : seen w.files) :
    ∀ u ∈ is ++ is', seen u.world.files := by
  intro u hu
  rcases List.mem_append.1 hu with hu | hu
  · exact hi u hu
  · rw [List.append_assoc] at ht
    have hr : ∀ u ∈ is', u.request.records = false := fun u hu =>
      not_records_of_reads (h.inspection.2 u (List.mem_append_right _ hu))
    rw [ht.files_until hr u (List.mem_append_left _ hu)]
    exact hw

/-- **The part of the task in the slot begins or grows** with its turns. -/
theorem Told.grow (h : r.Told o seen blocks last es) (hb : r.service.begun = true)
    (he : r.service.ended = false) {a : Agent} {w : World} {k : Ledger} {t : TaskRun}
    {is is' ps ps' ss ss' : List Turn}
    (hk : k.finished = r.ledger.finished ∧ k.asked = r.ledger.asked ∧ k.givenUp = none)
    (ha : a.running = some t) (hlast : last.flatten = eventsOf (deedsOf ss) ∧ last.length ≤ 1)
    (hi : ∀ u ∈ is, seen u.world.files) (hseen : seen r.world.files)
    (ht : Taken r.world (is' ++ ps' ++ ss') w)
    (hf : t.Follows o.world.around o.setup.pipeline (is ++ is') (ps ++ ps') (ss ++ ss'))
    (hlen : blocks.length + 1 ≤ r.ledger.asked.length) :
    Told o seen ⟨{ r.service with agent := a }, w, k⟩ blocks [eventsOf (deedsOf (ss ++ ss'))]
      (es ++ eventsOf (deedsOf ss')) where
  setup := h.setup
  dir := h.dir
  fresh hb' := by
    rw [show r.service.begun = false from hb'] at hb
    cases hb
  world := by
    have hw := World.tells_taken ht
    rw [hf.events] at hw
    exact h.world.trans hw
  shape := by
    have hs := h.shape
    rw [hb, he] at hs
    show Shape _ r.service.begun r.service.ended _
    rw [hb, he]
    exact hs.middle fun e he => .inl (isPart_of_follows hf e he)
  whole := by
    rw [hk.1]
    exact h.whole
  slot := by
    rw [hk.2.2]
    show Last _ _ _ a.running _ _
    rw [ha]
    exact .underway hf (inspection_sees hf ht hi hseen)
  tale := by
    have hparts := isPart_of_follows hf
    have hflat : [eventsOf (deedsOf (ss ++ ss'))].flatten =
        last.flatten ++ scanned (eventsOf (deedsOf ss')) := by
      rw [scanned_of_parts hparts, hlast.1]
      simp
    have hext : ∀ n,
        (last.take n).flatten <+: ([eventsOf (deedsOf (ss ++ ss'))].take n).flatten := by
      -- there is one part at most, so a cut keeps it whole or drops it
      intro n
      cases n with
      | zero => exact List.prefix_rfl
      | succ n =>
        rw [List.take_of_length_le (by have := hlast.2; omega), List.take_of_length_le (by simp),
          hflat]
        exact List.prefix_append ..
    have htale := h.tale.append hflat hext (by simpa using hlen)
    rw [announced_of_parts hparts, List.append_nil] at htale
    rw [hk.2.1]
    exact htale

/-- A task begins, and its part with it. -/
theorem Told.start (h : r.Told o seen blocks last es) (ho : r.Orderly) (hx : r.Exits)
    {task : ScanTask} {rest : List ScanTask} (hl : r.service.agent.left = false)
    (hr : r.service.agent.running = none) (hq : r.service.agent.queue = task :: rest)
    (hseen : seen r.world.files) :
    ∃ last' es', Told o seen
      ⟨{ r.service with agent := { r.service.agent with
          queue := rest
          running := some (TaskRun.start r.service.setup.pipeline task r.world).1 } },
        (TaskRun.start r.service.setup.pipeline task r.world).2,
        { r.ledger with begun := r.ledger.begun ++ [task] }⟩ blocks last' es' := by
  obtain ⟨is, ps, ss, ht, hf⟩ := TaskRun.start_follows r.service.setup.pipeline task r.world
  rw [h.world.around, h.setup] at hf
  have hs := h.slot
  have hlen := h.length ho
  have hb : r.service.begun = true := ho.began (by rw [ho.asked, hq]; simp)
  rw [hr, hx.kept hl] at hs
  -- the slot is empty, so no part is open
  cases hs
  have hroom : blocks.length + 1 ≤ r.ledger.asked.length := by
    rw [ho.asked, hq, List.length_append, ← hlen]
    simp
  rw [h.setup] at ht ⊢
  rw [← List.nil_append is, ← List.nil_append ps, ← List.nil_append ss] at hf
  exact ⟨_, _, h.grow hb (hx.going hl) ⟨rfl, rfl, hx.kept hl⟩ rfl ⟨rfl, by simp⟩ (by simp) hseen
    ht hf hroom⟩

/-- The task under way goes on, and its part grows. -/
theorem Told.resume (h : r.Told o seen blocks last es) (ho : r.Orderly) (hx : r.Exits)
    {t : TaskRun} (ht : r.service.agent.running = some t) (hseen : seen r.world.files) :
    ∃ last' es', Told o seen
      ⟨{ r.service with agent := { r.service.agent with
          running := some (t.resume r.service.setup.pipeline r.world).1 } },
        (t.resume r.service.setup.pipeline r.world).2, r.ledger⟩ blocks last' es' := by
  have hs := h.slot
  have hlen := h.length ho
  have hg := hx.kept_running ht
  have hroom : (blocks ++ last).length ≤ r.ledger.asked.length := h.length_le ho
  have hb : r.service.begun = true := ho.began (by rw [ho.asked, ho.begun_running hx ht]; simp)
  rw [ht, hg] at hs
  cases hs with
  | @underway _ is ps ss hf hi =>
    rw [← h.world.around] at hf
    obtain ⟨is', ps', ss', htaken, hf'⟩ := TaskRun.resume_follows hf
    rw [h.world.around] at hf'
    rw [h.setup]
    exact ⟨_, _, h.grow hb (hx.going_running ht) ⟨rfl, rfl, hg⟩ rfl ⟨by simp, by simp⟩ hi hseen
      htaken hf' (by simpa using hroom)⟩

/-- **Every step goes on with the tale.** -/
theorem Step.told (hs : Step files r r') (hseen : seen files) (ho : r.Orderly) (hx : r.Exits)
    (h : r.Told o seen blocks last es) :
    ∃ blocks' last' es', r'.Told o seen blocks' last' es' := by
  cases hs with
  | pass ms files' => exact ⟨_, _, _, { h with world := ⟨h.world.around, h.world.deeds⟩ }⟩
  | alongside ha hw =>
    exact ⟨_, _, _, h.silent ⟨ha.setup, ha.begun, ha.ended, ha.dir⟩ (by rw [ha.agent]) hw⟩
  | close hc hw => exact ⟨_, _, _, h.silent ⟨rfl, rfl, rfl, rfl⟩ rfl hw⟩
  | look hl => exact ⟨_, _, _, h.silent ⟨rfl, rfl, rfl, rfl⟩ rfl (.refl _)⟩
  | greet hb => exact ⟨_, _, _, h.greet ho hb⟩
  | ask task line hb hl => exact ⟨_, _, _, h.ask ho hb (hx.going hl) task line _ rfl⟩
  | settle ht hr =>
    obtain ⟨blocks', h'⟩ := h.settle hx ht hr
    exact ⟨_, _, _, h'⟩
  | start hl hc hr hq hf =>
    obtain ⟨last', es', h'⟩ := h.start ho hx hl hr hq (hf ▸ hseen)
    exact ⟨_, _, _, h'⟩
  | leave hl =>
    obtain ⟨blocks', last', h'⟩ := h.leave hx
    exact ⟨_, _, _, h'⟩
  | resume ht hf =>
    obtain ⟨last', es', h'⟩ := h.resume ho hx ht (hf ▸ hseen)
    exact ⟨_, _, _, h'⟩
  | finish hb hl hr he => exact ⟨_, _, _, h.finish ho hb he⟩

end Run

end DownloadTriage
