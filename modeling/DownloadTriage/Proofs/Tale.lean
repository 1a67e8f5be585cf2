import Mathlib.Data.List.Forall2
import DownloadTriage.Proofs.Course

/-!
# What listeners are told

Of each file that is asked for listeners are told at once, and of its scan by a **block**: nothing
if the file is not there or too large, otherwise the code at the entry point, if there is some, and
one report. In a **tale** the blocks follow each other in the order in which files were asked for.

* `TaskRun.Follows.block`: a task that is over told one block.
* `TaskRun.Follows.block_prefix`: a task under way told the beginning of one.
* `Tale.append`: how a tale goes on.
-/

namespace DownloadTriage

/-! ## Events -/

/-- The deed that tells the listeners something. -/
def Deed.event? : Deed → Option Event
  | .emitted e => some e
  | _ => none

/-- What listeners are told by deeds. -/
def eventsOf (ds : List Deed) : List Event := ds.filterMap Deed.event?

@[simp] theorem eventsOf_append (ds es : List Deed) :
    eventsOf (ds ++ es) = eventsOf ds ++ eventsOf es := List.filterMap_append

/-- To tell the listeners is a milestone. -/
theorem eventsOf_milestones (ds : List Deed) : eventsOf (milestones ds) = eventsOf ds := by
  induction ds with
  | nil => rfl
  | cons d ds ih =>
    rw [milestones_cons]
    cases d with
    | emitted e => exact congrArg (e :: ·) ih
    | submitted r => exact ih
    | consulted p => exact ih
    | _ => exact ih

theorem eventsOf_of_calm {ds : List Deed} (h : milestones ds = []) : eventsOf ds = [] := by
  rw [← eventsOf_milestones, h]
  rfl

namespace Event

/-- The file that the event says was asked for. -/
def asks : Event → Option ScanTask
  | scanStarted name path manual => some ⟨path, name, manual⟩
  | _ => none

/-- The event belongs to a block. -/
def isPart : Event → Bool
  | code _ _ _ | report _ => true
  | _ => false

theorem asks_of_isPart {e : Event} (h : e.isPart = true) : e.asks = none := by
  cases e <;> first | rfl | cases h

end Event

/-- The files that were asked for, in order. -/
def announced (es : List Event) : List ScanTask := es.filterMap Event.asks

/-- What of it belongs to blocks. -/
def scanned (es : List Event) : List Event := es.filter Event.isPart

@[simp] theorem announced_append (es fs : List Event) :
    announced (es ++ fs) = announced es ++ announced fs := List.filterMap_append

@[simp] theorem scanned_append (es fs : List Event) :
    scanned (es ++ fs) = scanned es ++ scanned fs := List.filter_append ..

theorem announced_of_parts {es : List Event} (h : ∀ e ∈ es, e.isPart = true) :
    announced es = [] :=
  List.filterMap_eq_nil_iff.2 fun e he => Event.asks_of_isPart (h e he)

theorem scanned_of_parts {es : List Event} (h : ∀ e ∈ es, e.isPart = true) : scanned es = es :=
  List.filter_eq_self.2 h

/-! ## Blocks -/

/-- The events are those of a whole scan with a result. -/
def IsBlock (task : ScanTask) (result : Option Report) (es : List Event) : Prop :=
  match result with
  | none => es = []
  | some r => es = [.report r] ∨ ∃ lines info, lines ≠ [] ∧ r.code = some lines ∧
      es = [.code task.filename lines info, .report r]

theorem IsBlock.parts {task : ScanTask} {result : Option Report} {es : List Event}
    (h : IsBlock task result es) : ∀ e ∈ es, e.isPart = true := by
  cases result with
  | none =>
    have he : es = [] := h
    simp [he]
  | some r =>
    rcases h with rfl | ⟨lines, info, _, _, rfl⟩
    · simp [Event.isPart]
    · simp [Event.isPart]

/-- A whole block, with the files as they stood when the task looked at its file: there is a result
if it could be scanned, and then only. -/
def Block (seen : FileTree → Prop) (task : ScanTask) (result : Option Report) (es : List Event) :
    Prop :=
  IsBlock task result es ∧
    ∃ t, seen t ∧ (result.isSome ↔ Pipeline.Scannable t task.path)

theorem Block.mono {seen seen' : FileTree → Prop} (h : ∀ t, seen t → seen' t) {task : ScanTask}
    {result : Option Report} {es : List Event} (hb : Block seen task result es) :
    Block seen' task result es :=
  ⟨hb.1, hb.2.imp fun t ht => ⟨h t ht.1, ht.2⟩⟩

namespace Pipeline

variable {s : Surroundings}

/-- A scan tells its block. -/
theorem scan_block (l : Pipeline) (task : ScanTask) :
    (l.scan task).Ensures s fun ts r => IsBlock task (some r) (eventsOf (deedsOf ts)) := by
  refine (l.scan_ensures task).mono fun ts r h => ?_
  obtain ⟨front, back, w, w', rfl, -, hback, t₁, -, t₂, -, t₃, -, hf⟩ := h
  have hb := milestones_deedsOf fun t ht => not_isMilestone_of_collects (hback t ht)
  have he : eventsOf (deedsOf (front ++ ⟨w, .emit (.report r)⟩ :: ⟨w', .submit r⟩ :: back)) =
      eventsOf (milestones (deedsOf front)) ++ [.report r] := by
    have hback : eventsOf (.emitted (.report r) :: .submitted r :: deedsOf back) = [.report r] := by
      show .report r :: eventsOf (deedsOf back) = [.report r]
      rw [eventsOf_of_calm hb]
    rw [eventsOf_milestones, ← hback]
    simp [Turn.deeds_eq]
  rw [he]
  generalize milestones (deedsOf front) = ms at hf
  by_cases hp : Pe.probeFile t₂.world.files task.path = .ok true
  · obtain ⟨hm, -⟩ := hf.image hp
    cases hc : shownCode s.decoder t₃.world.files task.path with
    | none =>
      rw [hm, hc]
      exact .inl rfl
    | some c =>
      have hmem : .emitted (.code task.filename c.lines c.eventInfo) ∈ ms := by
        simp [hm, hc, announcement]
      obtain ⟨-, hl, hr, -⟩ := hf.reported _ _ _ hmem
      rw [hm, hc]
      exact .inr ⟨c.lines, c.eventInfo, hl, hr, rfl⟩
  · rw [(hf.plain hp).1]
    exact .inl rfl

end Pipeline

namespace TaskRun

variable {s : Surroundings} {l : Pipeline} {t : TaskRun} {is ps ss : List Turn}

/-- What a task does beside its scan tells nothing. -/
theorem Follows.events (h : Follows s l t (is ++ is') (ps ++ ps') (ss ++ ss')) :
    eventsOf (deedsOf (is' ++ ps' ++ ss')) = eventsOf (deedsOf ss') := by
  -- neither reads nor pushes pass a milestone
  have hi : eventsOf (deedsOf is') = [] := eventsOf_of_calm <| milestones_deedsOf fun t ht =>
    not_isMilestone_of_reads (h.inspection.2 t (List.mem_append_right _ ht))
  have hp : eventsOf (deedsOf ps') = [] := eventsOf_of_calm <| milestones_deedsOf fun t ht =>
    not_isMilestone_of_pushes (h.pushes t (List.mem_append_right _ ht))
  simp [hi, hp]

/-- **A task that is over** told one block. -/
theorem Follows.block {seen : FileTree → Prop} (h : Follows s l t is ps ss)
    (hseen : ∀ t ∈ is, seen t.world.files) {result : Option Report} (hr : t.result? = some result) :
    Block seen t.task result (eventsOf (deedsOf ss)) := by
  cases h with
  | inspecting hf => cases hr
  | working hf hp hs => cases hr
  | skipped hf =>
    obtain ⟨-, -, t, ht, hb⟩ := hf.result (Pipeline.inspect_ensures _)
    obtain rfl := Option.some.inj hr
    exact ⟨rfl, t.world.files, hseen t ht, hb⟩
  | finished hf hp hs =>
    obtain ⟨-, -, t, ht, hb⟩ := hf.result (Pipeline.inspect_ensures _)
    obtain rfl := Option.some.inj hr
    exact ⟨hs.result (l.scan_block _), t.world.files, hseen t ht, hb⟩

/-- **A task under way** told the beginning of a block. -/
theorem Follows.block_prefix (h : Follows s l t is ps ss) :
    ∃ result block, IsBlock t.task result block ∧ eventsOf (deedsOf ss) <+: block := by
  have scan : ∀ {f : Fiber Report}, f.Follows s (l.scan t.task) ss →
      ∃ result block, IsBlock t.task result block ∧ eventsOf (deedsOf ss) <+: block := by
    intro f hs
    obtain ⟨us, r, hb⟩ := hs.exists (l.scan_block _)
    rw [deedsOf_append, eventsOf_append] at hb
    exact ⟨some r, _, hb, List.prefix_append ..⟩
  cases h with
  | inspecting hf => exact ⟨none, [], rfl, List.prefix_rfl⟩
  | skipped hf => exact ⟨none, [], rfl, List.prefix_rfl⟩
  | working hf hp hs => exact scan hs
  | finished hf hp hs => exact scan hs

end TaskRun

/-! ## Tales -/

/-- Blocks of tasks in the order in which these were asked for, each after its task was. -/
structure Tale (asked : List ScanTask) (parts : List (List Event)) (es : List Event) : Prop where
  order : announced es = asked
  flat : scanned es = parts.flatten
  /-- What was told at any time belongs to tasks that had been asked for by then. -/
  after : ∀ before rest, es = before ++ rest →
    scanned before <+: (parts.take (announced before).length).flatten

theorem Tale.nil : Tale [] [] [] where
  order := rfl
  flat := rfl
  after before rest h := by
    obtain ⟨rfl, -⟩ := List.append_eq_nil_iff.1 h.symm
    exact List.prefix_rfl

/-- **A tale goes on**: its last part may grow, or a new one begin, if its task was asked for. -/
theorem Tale.append {asked : List ScanTask} {blocks last last' : List (List Event)}
    {es more : List Event} (h : Tale asked (blocks ++ last) es)
    (hp : last'.flatten = last.flatten ++ scanned more)
    (hext : ∀ n, (last.take n).flatten <+: (last'.take n).flatten)
    (hlen : (blocks ++ last').length ≤ asked.length) :
    Tale (asked ++ announced more) (blocks ++ last') (es ++ more) where
  order := by rw [announced_append, h.order]
  flat := by
    rw [scanned_append, h.flat, List.flatten_append, List.flatten_append, hp, List.append_assoc]
  after before rest he := by
    rcases List.append_eq_append_iff.1 he with ⟨y, rfl, hy⟩ | ⟨x, rfl, -⟩
    -- cut after the old tale: all parts belong to tasks that were asked for
    · have hall : (announced (es ++ y)).length ≥ (blocks ++ last').length := by
        rw [announced_append, h.order, List.length_append]
        omega
      rw [List.take_of_length_le hall, List.flatten_append, hp, ← List.append_assoc,
        ← List.flatten_append, ← h.flat, ← scanned_append]
      refine ⟨scanned rest, ?_⟩
      rw [← scanned_append, he]
    -- cut within the old tale: as before, with longer parts
    · refine (h.after before x rfl).trans ?_
      rw [List.take_append, List.take_append, List.flatten_append, List.flatten_append]
      obtain ⟨z, hz⟩ := hext ((announced before).length - blocks.length)
      exact ⟨z, by rw [List.append_assoc, hz]⟩

/-- What belongs to no block leaves the parts as they are. -/
theorem Tale.aside {asked : List ScanTask} {blocks last : List (List Event)}
    {es more : List Event} (h : Tale asked (blocks ++ last) es) (hm : scanned more = [])
    (hlen : (blocks ++ last).length ≤ asked.length) :
    Tale (asked ++ announced more) (blocks ++ last) (es ++ more) :=
  h.append (by rw [hm, List.append_nil]) (fun _ => List.prefix_rfl) hlen

end DownloadTriage
