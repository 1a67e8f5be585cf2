import DownloadTriage.Model.Response
import DownloadTriage.Proofs.Requests

/-!
# One task

What the programs of a task ensure, and how a task goes on. The **milestones** among the deeds are
what listeners are told, what the model is asked and what is handed over for upload; a scan passes
them in a fixed order.

* `scan_ensures`: a scan passes its milestones, one terminal report among them, and then uploads.
-/

namespace DownloadTriage

/-! ## Milestones -/

/-- The request is to tell the listeners, to ask the model or to hand over a report. -/
def Request.isMilestone : Request → Bool
  | .emit _ | .submit _ | .consult _ _ => true
  | _ => false

/-- Listeners were told, the model was asked, or a report was handed over. -/
def Deed.isMilestone : Deed → Bool
  | .emitted _ | .submitted _ | .consulted _ => true
  | _ => false

/-- The milestones among what was done. -/
def milestones (ds : List Deed) : List Deed := ds.filter (·.isMilestone)

@[simp] theorem milestones_nil : milestones [] = [] := rfl

theorem milestones_cons (d : Deed) (ds : List Deed) :
    milestones (d :: ds) = if d.isMilestone then d :: milestones ds else milestones ds :=
  List.filter_cons

@[simp] theorem milestones_append (ds es : List Deed) :
    milestones (ds ++ es) = milestones ds ++ milestones es := List.filter_append ..

theorem milestones_turn {t : Turn} (h : t.request.isMilestone = false) :
    milestones t.deeds = [] := by
  obtain ⟨w, r⟩ := t
  rw [Turn.deeds_eq]
  cases r with
  | record path url => simp [milestones, Deed.isMilestone]
  | emit e => cases h
  | submit r => cases h
  | consult path fp => cases h
  | _ => rfl

/-- Turns without a milestone pass none. -/
theorem milestones_deedsOf {ts : List Turn} (h : ∀ t ∈ ts, t.request.isMilestone = false) :
    milestones (deedsOf ts) = [] := by
  induction ts with
  | nil => rfl
  | cons t ts ih =>
    obtain ⟨ht, hts⟩ := List.forall_mem_cons.1 h
    rw [deedsOf_cons, milestones_append, milestones_turn ht, ih hts]
    rfl

theorem not_isMilestone_of_collects {r : Request} (h : r.collects = true) :
    r.isMilestone = false := by
  cases r <;> first | rfl | cases h

theorem not_isMilestone_of_pushes {r : Request} (h : r.pushes = true) :
    r.isMilestone = false := by
  cases r <;> first | rfl | cases h

theorem not_isMilestone_of_reads {r : Request} (h : r.reads = true) :
    r.isMilestone = false := by
  cases r <;> first | rfl | cases h

theorem not_records_of_reads {r : Request} (h : r.reads = true) : r.records = false := by
  cases r <;> first | rfl | cases h

namespace Pipeline

open Program

variable {s : Surroundings}

/-- A file of less than the limit stands at the path. -/
def Scannable (t : FileTree) (p : Path) : Prop := ∃ st, t.stat p = .ok st ∧ st.size < sizeLimit

/-- **An inspection** only logs, and says whether the file can be scanned. -/
theorem inspect_ensures (task : ScanTask) :
    (inspect task).Ensures s fun ts b => (∀ d ∈ deedsOf ts, ∃ line, d = .logged line) ∧
      (∀ t ∈ ts, t.request.reads = true) ∧
      ∃ t ∈ ts, b = true ↔ Scannable t.world.files task.path := by
  unfold inspect
  rw [ensures_bind, ensures_log]
  intro w hw
  rw [ensures_bind, ensures_request]
  intro w' hw'
  rw [World.reply_files]
  cases hst : w'.files.stat task.path with
  | error e =>
    intro w'' hw''
    refine ⟨by simp [Turn.deeds_eq], by simp [Request.reads], ⟨w', .files⟩, by simp, ?_⟩
    simp [Scannable, hst]
  | ok st =>
    by_cases hsize : sizeLimit ≤ st.size
    · simp only [if_pos hsize]
      intro w'' hw''
      refine ⟨by simp [Turn.deeds_eq], by simp [Request.reads], ⟨w', .files⟩, by simp, ?_⟩
      simp [Scannable, hst, Nat.not_lt.2 hsize]
    · simp only [if_neg hsize]
      refine ⟨by simp [Turn.deeds_eq], by simp [Request.reads], ⟨w', .files⟩, by simp, ?_⟩
      simp [Scannable, hst, Nat.not_le.1 hsize]

/-- A fingerprint is taken of the file as it stands at one turn. -/
theorem fingerprint_ensures (p : Path) :
    (fingerprint p).Ensures s fun ts fp => (∀ t ∈ ts, t.request.reads = true) ∧
      ∃ t ∈ ts, fp = (Fingerprint.ofFile t.world.files p).toOption := by
  unfold fingerprint
  rw [ensures_bind, ensures_request]
  intro w hw
  rw [World.reply_files]
  cases hf : Fingerprint.ofFile w.files p with
  | ok f => exact ⟨by simp [Request.reads], ⟨w, .files⟩, by simp, by simp [hf, Except.toOption]⟩
  | error e =>
    intro w' hw'
    exact ⟨by simp [Request.reads], ⟨w, .files⟩, by simp, by simp [hf, Except.toOption]⟩

/-- A probe says of the file as it stands at one turn whether it is an image. -/
theorem probe_ensures (p : Path) :
    (probe p).Ensures s fun ts b => (∀ t ∈ ts, t.request.reads = true) ∧
      ∃ t ∈ ts, b = true ↔ Pe.probeFile t.world.files p = .ok true := by
  unfold probe
  rw [ensures_bind, ensures_request]
  intro w hw
  rw [World.reply_files]
  cases hf : Pe.probeFile w.files p with
  | ok b => exact ⟨by simp [Request.reads], ⟨w, .files⟩, by simp, by simp [hf]⟩
  | error e =>
    intro w' hw'
    exact ⟨by simp [Request.reads], ⟨w, .files⟩, by simp, by simp [hf]⟩

/-- The code of the file at a path, as a decoder gives it. -/
def codeAt (decode : Decoder) (t : FileTree) (p : Path) : Option Pe.Snippet :=
  (t.read p).toOption.bind fun data => (Pe.snippet decode data).toOption

/-- Code is decoded from the file as it stands at one turn; any failure gives none. -/
theorem code_ensures (p : Path) :
    (code p).Ensures s fun ts c => (∀ t ∈ ts, t.request.reads = true) ∧
      ∃ t ∈ ts, c = codeAt s.decoder t.world.files p := by
  refine ((code_only p).ensures.and ?_)
  unfold code
  rw [ensures_bind, ensures_request]
  intro w hw
  rw [World.reply_files]
  cases hr : w.files.read p with
  | error e =>
    intro w' hw'
    exact ⟨⟨w, .files⟩, by simp, by simp [codeAt, hr, Except.toOption]⟩
  | ok data =>
    dsimp only
    cases hq : Pe.snippetQuery data with
    | error e =>
      intro w' hw'
      exact ⟨⟨w, .files⟩, by simp, by simp [codeAt, hr, Pe.snippet, hq, Except.toOption]⟩
    | ok q =>
      dsimp only
      rw [ensures_bind, ensures_request]
      intro w' hw'
      -- the decoder stays the same, so it answers now as it would at the first turn
      rw [show (w'.answer (.decode q.2)).1 = s.decoder q.2 by rw [← hw']; rfl]
      cases hs : Pe.Snippet.ofAnswer q.1 (s.decoder q.2) with
      | error e =>
        intro w'' hw''
        exact ⟨⟨w, .files⟩, by simp, by simp [codeAt, hr, Pe.snippet, hq, hs, Except.toOption]⟩
      | ok c =>
        exact ⟨⟨w, .files⟩, by simp, by simp [codeAt, hr, Pe.snippet, hq, hs, Except.toOption]⟩

end Pipeline

/-! ## Judgements -/

/-- No answer of a model carries code. -/
structure Surroundings.CodeFree (s : Surroundings) : Prop where
  model : ∀ n t p fp r, s.model n t p fp = .ok r → r.code = none
  standIn : ∀ n t p fp r, s.standIn n t p fp = .ok r → r.code = none

/-- A response of a model carries no code. -/
theorem Response.report_code (image : Option String → Option String) (filename : String)
    (fp : Option Fingerprint) (r : Response) : (r.report image filename fp).code = none := rfl

/-- A sample report carries no code. -/
theorem Draw.report_code (d : Draw) (filename : String) (fp : Option Fingerprint) (isPe : Bool) :
    (d.report filename fp isPe).code = none := rfl

namespace Judgement

open Program

variable {s : Surroundings}

theorem substitute_ensures (standIn : StandIn) (p : Path) (fp : Option Fingerprint) :
    (substitute standIn p fp).Ensures s fun ts r =>
      (∀ t ∈ ts, t.request.records = false ∧ t.request.isMilestone = false) ∧
        (s.CodeFree → r.code = none) := by
  cases standIn with
  | samples =>
    intro w hw
    exact ⟨by simp [Request.records, Request.isMilestone], fun _ => Draw.report_code ..⟩
  | other name =>
    unfold substitute
    rw [ensures_bind, ensures_request]
    rintro w rfl
    cases ha : (w.answer (.standIn p fp)).1 with
    | ok r =>
      refine ⟨by simp [Request.records, Request.isMilestone], fun hc => ?_⟩
      exact hc.standIn _ _ _ _ _ ha
    | error e =>
      intro w' hw' w'' hw''
      exact ⟨by simp [Request.records, Request.isMilestone], fun _ => Draw.report_code ..⟩

/-- **A judgement** asks the model once. -/
theorem judge_ensures (standIn : StandIn) (p : Path) (fp : Option Fingerprint) :
    (judge standIn p fp).Ensures s fun ts r => (∀ t ∈ ts, t.request.records = false) ∧
      milestones (deedsOf ts) = [.consulted p] ∧ (s.CodeFree → r.code = none) := by
  unfold judge consult
  rw [ensures_bind, ensures_bind, ensures_request]
  rintro w rfl
  cases ha : (w.answer (.consult p fp)).1 with
  | ok r =>
    intro w' hw'
    refine ⟨by simp [Request.records], by simp [Turn.deeds_eq, milestones_cons, Deed.isMilestone],
      fun hc => ?_⟩
    have hr : r.code = none := hc.model _ _ _ _ _ ha
    exact hr
  | error e =>
    rw [ensures_pure]
    dsimp only [consultation]
    rw [ensures_bind, ensures_log]
    intro w' hw'
    rw [ensures_bind]
    refine (substitute_ensures standIn p fp).mono fun ts r h => ?_
    refine ⟨by simpa [Request.records] using fun t ht => (h.1 t ht).1, ?_, h.2⟩
    -- a stand-in is no model: the failed consultation is the only one
    have hs := milestones_deedsOf fun t ht => (h.1 t ht).2
    simp [Turn.deeds_eq, milestones_cons, Deed.isMilestone, hs]

end Judgement

/-! ## A scan -/

namespace Pipeline

open Program

variable {s : Surroundings}

/-- The code that is shown of a file, if there is some. -/
def shownCode (decode : Decoder) (t : FileTree) (p : Path) : Option Pe.Snippet :=
  (codeAt decode t p).filter fun c => c.lines ≠ []

/-- Listeners are told of code, if there is some. -/
def announcement (task : ScanTask) : Option Pe.Snippet → List Deed
  | some c => [.emitted (.code task.filename c.lines c.eventInfo)]
  | none => []

/-- **What a scan finds**: the milestones before its report, and the report. Fingerprint, probe and
code are each taken of the files as they stand then. -/
structure Finding (s : Surroundings) (task : ScanTask) (hashed probed decoded : FileTree)
    (front : List Deed) (r : Report) : Prop where
  /-- What is no image, or cannot be probed, is benign, and the model is not asked. -/
  plain : Pe.probeFile probed task.path ≠ .ok true → front = [] ∧ r = Report.notPe task.filename
    ((Fingerprint.ofFile hashed task.path).toOption.getD Fingerprint.unknown)
  /-- An image is told by its code, if there is some, and judged once. -/
  image : Pe.probeFile probed task.path = .ok true →
    front = announcement task (shownCode s.decoder decoded task.path) ++ [.consulted task.path] ∧
    r.isPe = true
  /-- Told code is reported too. -/
  reported : ∀ name lines info, .emitted (.code name lines info) ∈ front →
    name = task.filename ∧ lines ≠ [] ∧ r.code = some lines ∧
    ∃ i, r.codeInfo = some i ∧ i.arch = info.arch ∧ i.entryRva = info.entryRva
  /-- Reported code was told, unless the judgement brought it along. -/
  told : s.CodeFree → ∀ lines, r.code = some lines →
    ∃ info, .emitted (.code task.filename lines info) ∈ front

theorem lines_of_shownCode {decode : Decoder} {t : FileTree} {p : Path} {c : Pe.Snippet}
    (h : shownCode decode t p = some c) : c.lines ≠ [] := by
  have := (Option.filter_eq_some_iff.1 h).2
  simpa using this

theorem withCode_isPe (c : Option Pe.Snippet) (r : Report) : (withCode c r).isPe = r.isPe := by
  cases c <;> rfl

/-- What is no image is reported without code. -/
theorem Finding.ofPlain {task : ScanTask} {hashed probed decoded : FileTree}
    (h : Pe.probeFile probed task.path ≠ .ok true) :
    Finding s task hashed probed decoded [] (Report.notPe task.filename
      ((Fingerprint.ofFile hashed task.path).toOption.getD Fingerprint.unknown)) where
  plain _ := ⟨rfl, rfl⟩
  image hp := absurd hp h
  reported _ _ _ hm := nomatch hm
  told _ _ hr := nomatch hr

/-- An image is reported with the code that was told. -/
theorem Finding.ofImage {task : ScanTask} {hashed probed decoded : FileTree} {r : Report}
    (h : Pe.probeFile probed task.path = .ok true) (hpe : r.isPe = true)
    (hfree : s.CodeFree → r.code = none) :
    Finding s task hashed probed decoded
      (announcement task (shownCode s.decoder decoded task.path) ++ [.consulted task.path])
      (withCode (shownCode s.decoder decoded task.path) r) where
  plain hp := absurd h hp
  image _ := ⟨rfl, by rw [withCode_isPe, hpe]⟩
  reported name lines info hm := by
    cases hc : shownCode s.decoder decoded task.path with
    | none => simp [announcement, hc] at hm
    | some c =>
      have he : name = task.filename ∧ lines = c.lines ∧ info = c.eventInfo := by
        simpa [announcement, hc] using hm
      obtain ⟨rfl, rfl, rfl⟩ := he
      exact ⟨rfl, lines_of_shownCode hc, rfl, c.reportInfo, rfl, rfl, rfl⟩
  told hs lines hr := by
    cases hc : shownCode s.decoder decoded task.path with
    | none =>
      rw [hc] at hr
      rw [show (withCode none r).code = none from hfree hs] at hr
      cases hr
    | some c =>
      rw [hc] at hr
      have he : lines = c.lines := (Option.some.inj hr).symm
      exact ⟨c.eventInfo, by simp [announcement, he]⟩

theorem announce_ensures (task : ScanTask) (c : Option Pe.Snippet) :
    (announce task.filename c).Ensures s fun ts _ => (∀ t ∈ ts, t.request.records = false) ∧
      milestones (deedsOf ts) = announcement task c := by
  cases c with
  | none => exact ⟨by simp, rfl⟩
  | some c =>
    intro w hw
    exact ⟨by simp [Request.records], by
      simp [Turn.deeds_eq, milestones_cons, Deed.isMilestone, announcement]⟩

theorem scanImage_ensures (l : Pipeline) (task : ScanTask) (fp : Option Fingerprint) :
    (l.scanImage task fp).Ensures s fun ts r => (∀ t ∈ ts, t.request.records = false) ∧
      ∃ t ∈ ts, ∀ hashed probed, Pe.probeFile probed task.path = .ok true →
        Finding s task hashed probed t.world.files (milestones (deedsOf ts)) r := by
  unfold scanImage
  rw [ensures_bind]
  refine (code_ensures task.path).mono ?_
  rintro ts _ ⟨hts, t, ht, rfl⟩
  rw [ensures_bind]
  refine (announce_ensures task _).mono fun us _ hus => ?_
  rw [ensures_bind, ensures_log]
  intro w hw
  rw [ensures_bind]
  refine (Judgement.judge_ensures l.standIn task.path fp).mono fun vs r hvs => ?_
  rw [ensures_bind, ensures_log]
  intro w' hw'
  obtain ⟨hv, hm, hc⟩ := hvs
  -- to decode passes no milestone, so announcement and judgement are all there is
  have hr : ∀ t ∈ ts, t.request.records = false := fun t ht => not_records_of_reads (hts t ht)
  have hq := milestones_deedsOf fun t ht => not_isMilestone_of_reads (hts t ht)
  refine ⟨?_, t, by simp [ht], fun hashed probed hp => ?_⟩
  · simp only [List.forall_mem_append, List.forall_mem_singleton]
    exact ⟨hr, hus.1, rfl, hv, rfl, by simp⟩
  · have h : Finding s task hashed probed t.world.files _ (withCode _ { r with isPe := true }) :=
      .ofImage hp rfl hc
    simpa [Turn.deeds_eq, milestones_cons, Deed.isMilestone, hq, hus.2, hm, shownCode] using h

/-- **An examination** comes to a finding about the files as they stand at three turns. -/
theorem examine_ensures (l : Pipeline) (task : ScanTask) :
    (l.examine task).Ensures s fun ts r => (∀ t ∈ ts, t.request.records = false) ∧
      ∃ t₁ ∈ ts, ∃ t₂ ∈ ts, ∃ t₃ ∈ ts,
        Finding s task t₁.world.files t₂.world.files t₃.world.files
          (milestones (deedsOf ts)) r := by
  unfold examine
  rw [ensures_bind, ensures_log]
  intro w hw
  rw [ensures_bind]
  refine l.delay_only.ensures.mono fun ts₀ _ h₀ => ?_
  rw [ensures_bind]
  refine (fingerprint_ensures task.path).mono ?_
  rintro ts₁ _ ⟨h₁, t₁, ht₁, rfl⟩
  rw [ensures_bind]
  refine (probe_ensures task.path).mono ?_
  rintro ts₂ isPe ⟨h₂, t₂, ht₂, hpe⟩
  rw [ensures_bind, ensures_log]
  intro w' hw'
  have hr₀ : ∀ t ∈ ts₀, t.request.records = false := fun t ht => not_records_of_reads (h₀ t ht)
  have hr₁ : ∀ t ∈ ts₁, t.request.records = false := fun t ht => not_records_of_reads (h₁ t ht)
  have hr₂ : ∀ t ∈ ts₂, t.request.records = false := fun t ht => not_records_of_reads (h₂ t ht)
  have hm₀ := milestones_deedsOf fun t ht => not_isMilestone_of_reads (h₀ t ht)
  have hm₁ := milestones_deedsOf fun t ht => not_isMilestone_of_reads (h₁ t ht)
  have hm₂ := milestones_deedsOf fun t ht => not_isMilestone_of_reads (h₂ t ht)
  cases isPe with
  | true =>
    simp only [if_true]
    rw [ensures_bind]
    refine (l.scanImage_ensures task _).mono fun us r hus => ?_
    rw [ensures_bind, ensures_log]
    intro w'' hw''
    obtain ⟨hr, t₃, ht₃, hf⟩ := hus
    refine ⟨?_, t₁, by simp [ht₁], t₂, by simp [ht₂], t₃, by simp [ht₃], ?_⟩
    · simp only [List.forall_mem_append, List.forall_mem_singleton]
      exact ⟨rfl, hr₀, hr₁, hr₂, rfl, hr, rfl, by simp⟩
    · have := hf t₁.world.files t₂.world.files (hpe.1 rfl)
      simpa [Turn.deeds_eq, milestones_cons, Deed.isMilestone, hm₀, hm₁, hm₂] using this
  | false =>
    simp only [Bool.false_eq_true, if_false]
    rw [ensures_bind, ensures_pure, ensures_bind, ensures_log]
    intro w'' hw''
    have hp : Pe.probeFile t₂.world.files task.path ≠ .ok true := fun h => nomatch hpe.2 h
    refine ⟨?_, t₁, by simp [ht₁], t₂, by simp [ht₂], t₂, by simp [ht₂], ?_⟩
    · simp only [List.forall_mem_append, List.forall_mem_singleton]
      exact ⟨rfl, hr₀, hr₁, hr₂, rfl, by simp, rfl, by simp⟩
    · have h : Finding s task t₁.world.files t₂.world.files t₂.world.files [] _ := .ofPlain hp
      simpa [Turn.deeds_eq, milestones_cons, Deed.isMilestone, hm₀, hm₁, hm₂] using h

/-- **A scan** examines, tells its report, hands the same report over, and uploads. -/
theorem scan_ensures (l : Pipeline) (task : ScanTask) :
    (l.scan task).Ensures s fun ts r => ∃ front back w w',
      ts = front ++ ⟨w, .emit (.report r)⟩ :: ⟨w', .submit r⟩ :: back ∧
      (∀ t ∈ front, t.request.records = false) ∧ (∀ t ∈ back, t.request.collects = true) ∧
      ∃ t₁ ∈ front, ∃ t₂ ∈ front, ∃ t₃ ∈ front,
        Finding s task t₁.world.files t₂.world.files t₃.world.files
          (milestones (deedsOf front)) r := by
  unfold scan Client.submit
  rw [ensures_bind]
  refine (l.examine_ensures task).mono fun front r hfront => ?_
  rw [ensures_bind, ensures_request]
  intro w hw
  rw [ensures_bind, ensures_bind, ensures_request]
  intro w' hw'
  refine (l.client.upload_only _ _).ensures.mono fun back _ hback => ?_
  exact ⟨front, back, w, w', by simp, hfront.1, hback, hfront.2⟩

end Pipeline

end DownloadTriage
