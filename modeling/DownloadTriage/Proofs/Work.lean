import DownloadTriage.Proofs.Launches
import DownloadTriage.Proofs.ThroughShell

/-!
# The work of a tool is the outcome of its process

A model that is a tool is launched in a shell of its own, with an input that holds nothing and two
streams that collect what is printed. What the tool makes of the files, prints and ends with is then all
that there is to the process, for every tool: nothing is lost on the way through the streams, and what
goes to the errors does not reach the output.

* `Session.Shows.write`, `write_of_ne`: writing adds to one stream and leaves the other as it is.
* `Shell.writePieces_shows`: all pieces arrive, in their order.
* `Host.processes_tool`: the outcome of a tool's process, from its work.
-/

namespace DownloadTriage

open Script

/-! ## Streams that collect -/

namespace Session

variable {s : Session} {i j : Nat} {printed other bs : Bytes}

/-- A stream has collected a text, all of it at this time. -/
def Shows (s : Session) (i : Nat) (printed : Bytes) : Prop :=
  ∃ pieces, s.stream i = .collected pieces ∧ (∀ p ∈ pieces, p.1 = s.now) ∧
    (pieces.reverse.map (·.2)).flatten = printed

/-- Pieces of one time are in order. -/
theorem Shows.text (h : s.Shows i printed) : (s.stream i).text = printed := by
  obtain ⟨pieces, hs, hnow, rfl⟩ := h
  have hsorted : pieces.reverse.mergeSort (fun a b => a.1 ≤ b.1) = pieces.reverse := by
    apply List.mergeSort_of_pairwise
    apply List.pairwise_of_forall_mem_list
    intro a ha b hb
    rw [hnow a (List.mem_reverse.1 ha), hnow b (List.mem_reverse.1 hb)]
    simp
  rw [hs, Stream.text, hsorted]

/-- What collects is one of the streams. -/
theorem Shows.lt (h : s.Shows i printed) : i < s.streams.size := by
  obtain ⟨pieces, hs, -⟩ := h
  apply Decidable.byContradiction
  intro hi
  rw [stream, Array.getD_eq_getD_getElem?, Array.getElem?_eq_none (by omega)] at hs
  cases hs

theorem stream_setStream (hi : i < s.streams.size) (x : Stream) :
    (s.setStream i x).stream i = x := by
  simp [stream, setStream, Array.getD_eq_getD_getElem?, hi]

theorem stream_setStream_of_ne (h : i ≠ j) (x : Stream) :
    (s.setStream j x).stream i = s.stream i := by
  simp [stream, setStream, Array.getD_eq_getD_getElem?, h.symm]

/-- What is written is added, and nothing else of the session changes. -/
theorem Shows.write (h : s.Shows i printed) (bs : Bytes) :
    (s.write i bs).Shows i (printed ++ bs) ∧ ∃ streams, s.write i bs = { s with streams } := by
  have hi := h.lt
  obtain ⟨pieces, hs, hnow, rfl⟩ := h
  have hwrite : s.write i bs = s.setStream i (.collected ((s.now, bs) :: pieces)) := by
    rw [Session.write, hs]
  rw [hwrite]
  refine ⟨⟨_, stream_setStream hi _, ?_, by simp⟩, _, rfl⟩
  rintro p (_ | ⟨_, hp⟩)
  · rfl
  · exact hnow p hp

theorem Shows.write_of_ne (h : s.Shows i printed) (hj : s.Shows j other) (hne : i ≠ j) :
    (s.write j bs).Shows i printed := by
  obtain ⟨pieces, hs, hnow, rfl⟩ := h
  obtain ⟨others, ho, -⟩ := hj
  have hwrite : s.write j bs = s.setStream j (.collected ((s.now, bs) :: others)) := by
    rw [Session.write, ho]
  rw [hwrite]
  exact ⟨pieces, (stream_setStream_of_ne hne _).trans hs, hnow, rfl⟩

end Session

/-! ## Pieces -/

/-- What goes to an outlet. -/
def said (o : Outlet) (pieces : List (Outlet × Bytes)) : Bytes :=
  pieces.flatMap fun p => if p.1 = o then p.2 else []

/-- What a work has printed to an outlet. -/
def Work.text (w : Work) (o : Outlet) : Bytes := said o w.pieces.reverse

namespace Shell

variable {s : Shell} {told : Outlet → Bytes}

/-- The outlets of a shell are collected, each apart. -/
structure Collects (s : Shell) (told : Outlet → Bytes) : Prop where
  leads (o : Outlet) : s.streamOf? (descriptorOf o) = some (descriptorOf o)
  shows (o : Outlet) : s.session.Shows (descriptorOf o) (told o)

theorem writeTo_shows (h : Collects s told) (o : Outlet) (bs : Bytes) :
    Collects (s.writeTo (descriptorOf o) bs) (fun o' => told o' ++ if o = o' then bs else []) ∧
      ∃ streams, s.writeTo (descriptorOf o) bs = { s with session := { s.session with streams } } := by
  unfold writeTo
  split
  · rename_i hbs
    simp only [List.isEmpty_iff.1 hbs, ite_self, List.append_nil]
    exact ⟨h, _, rfl⟩
  · obtain ⟨hwritten, streams, hrest⟩ := (h.shows o).write bs
    simp only [h.leads]
    refine ⟨⟨h.leads, fun o' => ?_⟩, streams, by rw [hrest]⟩
    by_cases ho : o = o'
    · subst ho
      simpa using hwritten
    · have hne : descriptorOf o' ≠ descriptorOf o := by cases o <;> cases o' <;> simp_all [descriptorOf]
      simpa [ho] using (h.shows o').write_of_ne (h.shows o) hne

/-- **All pieces arrive**, each at its outlet and in their order. -/
theorem writePieces_shows (h : Collects s told) (pieces : List (Outlet × Bytes)) :
    Collects (writePieces pieces s) (fun o => told o ++ said o pieces) ∧
      ∃ streams, writePieces pieces s = { s with session := { s.session with streams } } := by
  induction pieces generalizing s told with
  | nil =>
    simp only [writePieces_nil, said, List.flatMap_nil, List.append_nil]
    exact ⟨h, _, rfl⟩
  | cons p ps ih =>
    obtain ⟨hstep, streams, hrest⟩ := writeTo_shows h p.1 p.2
    obtain ⟨hall, streams', hrest'⟩ := ih hstep
    rw [writePieces_cons]
    refine ⟨?_, streams', by rw [hrest', hrest]⟩
    simpa only [said, List.flatMap_cons, List.append_assoc] using hall

end Shell

/-! ## The process of a tool -/

namespace Host

variable {files : FileTree} {here : Place} {l : Launch} {t : Tool}

/-- What a tool makes of a launch. -/
def workIn (t : Tool) (files : FileTree) (here : Place) (l : Launch) : Work :=
  ((t ⟨bytes l.program, l.arguments, [], none⟩).run
    ⟨{ files with workingDir := here }, [], [], 0, some 0⟩).2

/-- The outcome of a process that did a work, for those who wait in a place. -/
def outcome (w : Work) (home : Place) : ProcessResult where
  output := w.text .output
  errors := w.text .errors
  status := .code (w.status % 256)
  durationMs := w.durationMs
  files := { w.files with workingDir := home }

/-- A shell in which a tool has done its work, and nothing of it is printed yet. -/
def settled (files : FileTree) (here : Place) (w : Work) : Shell :=
  { starting files here with
    session := ({ (starting files here).session with files := w.files } : Session).wait w.durationMs }

/-- Nothing is left of the input of a process, since it holds nothing. -/
theorem settle_starting (files : FileTree) (here : Place) (w : Work) :
    { starting files here with session := Shell.settle (some 0) [] w (starting files here).session } =
      settled files here w := by
  have hleave (left : Bytes) :
      ({ (starting files here).session with files := w.files } : Session).leave 0 left =
        { (starting files here).session with files := w.files } := rfl
  simp only [Shell.settle, hleave, ite_self, settled]

theorem settled_collects (files : FileTree) (here : Place) (w : Work) :
    (settled files here w).Collects fun _ => [] := by
  refine ⟨fun o => by cases o <;> rfl, fun o => ⟨[], ?_, nofun, rfl⟩⟩
  unfold settled
  cases w.durationMs <;> cases o <;> rfl

theorem settled_session (files : FileTree) (here : Place) (w : Work) :
    (settled files here w).session.endMs = w.durationMs ∧
      (settled files here w).session.files = w.files ∧
      (settled files here w).session.signalOf? firstProcess = none := by
  unfold settled
  cases w.durationMs with
  | none => exact ⟨rfl, rfl, rfl⟩
  | some ms => exact ⟨congrArg some (Nat.zero_add ms), rfl, rfl⟩

/-- **The process of a tool is its work**, whatever the tool is. -/
theorem runIn_tool (h : Tool.ofName? (Shell.installedName (bytes l.program)) = some t) :
    runIn files here l = .ok (outcome (workIn t files here l) files.workingDir) := by
  have ht : Shell.program? (starting files here).session (bytes l.program) = .ok (.tool t) :=
    Shell.program?_tool _ h
  have hdepth : Shell.depth = 19999 + 1 := rfl
  have hinput : (starting files here).streamOf? 0 = some 0 ∧ (starting files here).input = [] :=
    ⟨rfl, rfl⟩
  obtain ⟨w, hw⟩ : ∃ w, w = workIn t files here l := ⟨_, rfl⟩
  have hwork : Shell.workOf t (bytes l.program) l.arguments (starting files here) = w := hw ▸ rfl
  obtain ⟨r, hr⟩ : ∃ r, r = Shell.writePieces w.pieces.reverse (settled files here w) := ⟨_, rfl⟩
  have hstart : Shell.start Shell.depth Shell.missing (bytes l.program) l.arguments
      (starting files here) = r.withStatus w.status := by
    rw [hdepth, Shell.start_tool _ _ ht, Shell.runTool, hwork, hinput.1, hinput.2, settle_starting, hr]
  obtain ⟨hcollects, streams, hrest⟩ :=
    Shell.writePieces_shows (settled_collects files here w) w.pieces.reverse
  rw [← hr] at hcollects hrest
  -- what is printed has no part in the time, the files and the end
  obtain ⟨hend, hfiles, hsignal⟩ : r.session.endMs = w.durationMs ∧ r.session.files = w.files ∧
      r.session.signalOf? firstProcess = none := by
    rw [hrest]
    exact settled_session files here w
  have htext (o : Outlet) : (r.session.stream (Shell.descriptorOf o)).text = w.text o :=
    (hcollects.shows o).text.trans (List.nil_append _)
  have hresult : result (r.withStatus w.status) files.workingDir = outcome w files.workingDir := by
    simp only [result, Shell.withStatus, outcome, hend, hfiles, hsignal, ← htext]
    rfl
  simp only [runIn, ht, hstart, hresult, ← hw]

/-- **The outcome of a tool's process**, in the place where the launch runs. -/
theorem processes_tool (h : Tool.ofName? (Shell.installedName (bytes l.program)) = some t)
    (hn : l.hasNul = false) (hat : RunsAt files l here) :
    processes files l = .ok (outcome (workIn t files here l) files.workingDir) :=
  (processes_of_runsAt hn hat).trans (runIn_tool h)

end Host

end DownloadTriage
