import DownloadTriage.Model.Child
import DownloadTriage.Proofs.Task

/-!
# How substituted reports are marked

A model prints something or fails. Where that comes to no report something stands in, and its report
carries the mark and the text of the model's failure, never of the stand-in's. A report of the model
carries neither. What is told to the listeners and what is posted show the marks of the report.

* `Judgement.judge_judged`: what becomes of the model's outcome.
* `Pipeline.examine_judged`: a scan of an image asks once, and reports that judgement.
* `Wire.shows_ofReport`, `Client.shows_of_uploadBody`: documents show the marks.
* `Pipeline.scan_marked`: the marks of every judgement and every scan.
-/

namespace DownloadTriage

/-! ## What a model answers -/

/-- What becomes of a question to a model: it prints a text, and leaves files; or it fails. -/
inductive ModelAnswer where
  | printed (output : String) (left : FileTree)
  | failed (e : ModelError)

namespace ModelAnswer

/-- The report of a file, or why there is none, where the reader of a printed text has its words. -/
def outcome (say : Response.Objections) (p : Path) (fp : Option Fingerprint) :
    ModelAnswer → Except ModelError Report
  | printed output left =>
    (Response.read say output).map fun r => r.report (GraphImage.shown left) p.fileName fp
  | failed e => .error e

/-- The answer of a model that is run as a child process. -/
def ofChild (m : ChildModel) (host : Processes) (p : Path) : ModelAnswer :=
  match (m.answer host p).1 with
  | .ok r => printed (Utf8.lossy r.output) r.files
  | .error e => failed e

/-- **A child process** is a model of this kind. -/
theorem outcome_ofChild (m : ChildModel) (say : Response.Objections) (host : Processes) (p : Path)
    (fp : Option Fingerprint) :
    (ofChild m host p).outcome say p fp = (m.judge say host p fp).1 := by
  unfold ofChild ChildModel.judge
  obtain ⟨answer, lines⟩ := m.answer host p
  cases answer with
  | ok r => simp only [outcome, Except.bind]
  | error e => simp only [outcome, Except.bind]

/-- A report that a model gives carries no marks. -/
theorem outcome_unmarked {say : Response.Objections} {a : ModelAnswer} {p : Path}
    {fp : Option Fingerprint} {q : Report} (h : a.outcome say p fp = .ok q) :
    q.substituted = false ∧ q.error = none := by
  cases a with
  | failed e => cases h
  | printed output left =>
    rw [outcome] at h
    cases hr : Response.read say output with
    | error e => rw [hr] at h; cases h
    | ok r =>
      rw [hr] at h
      obtain rfl := Except.ok.inj h
      exact ⟨rfl, rfl⟩

end ModelAnswer

/-- The surroundings with a model that answers so, and a reader with those words. -/
def Surroundings.answering (s : Surroundings) (say : Response.Objections)
    (answers : Nat → FileTree → Path → Option Fingerprint → ModelAnswer) : Surroundings :=
  { s with model := fun n t p fp => (answers n t p fp).outcome say p fp }

theorem answer_consult {s : Surroundings} {say : Response.Objections}
    {answers : Nat → FileTree → Path → Option Fingerprint → ModelAnswer} {v : World}
    (hv : v.around = s.answering say answers) (p : Path) (fp : Option Fingerprint) :
    (v.answer (.consult p fp)).1 = (answers v.consultations v.files p fp).outcome say p fp := by
  show v.around.model _ _ _ _ = _
  rw [hv]
  rfl

/-! ## Marks -/

/-- What is said of a model's failure, if it failed. -/
def failure? : Except ModelError Report → Option String
  | .ok _ => none
  | .error e => some e.message

/-- The report is of an image; it is marked as substituted exactly if there was a failure, and carries
exactly its text. -/
structure Report.Marked (failure : Option String) (r : Report) : Prop where
  isPe : r.isPe = true
  substituted : r.substituted = failure.isSome
  error : r.error = failure

/-- The document shows these marks: without a failure there is neither a mark nor a text. -/
structure Wire.Shows (failure : Option String) (doc : Json) : Prop where
  isPe : doc.member? "is_pe" = some (.bool true)
  substituted : doc.member? "fallback" = if failure.isSome then some (.bool true) else none
  error : doc.member? "error" = failure.map .str

namespace Report

/-- The report of a judgement, after the model came to an outcome. -/
def Judged (x : Except ModelError Report) (r : Report) : Prop :=
  match x with
  | .ok q => r = { q with isPe := true }
  | .error e => ∃ q : Report,
    r = { q with substituted := true, error := some e.message, isPe := true }

theorem Judged.isPe {x : Except ModelError Report} {r : Report} (h : r.Judged x) :
    r.isPe = true := by
  cases x with
  | ok q => rw [show r = { q with isPe := true } from h]
  | error e =>
    obtain ⟨q, rfl⟩ := h
    rfl

theorem Judged.passed {q r : Report} (h : r.Judged (.ok q)) : r = { q with isPe := true } := h

theorem Judged.marked {x : Except ModelError Report} {r : Report} (h : r.Judged x)
    (hx : ∀ q, x = .ok q → q.substituted = false ∧ q.error = none) : r.Marked (failure? x) := by
  cases x with
  | ok q =>
    obtain ⟨hs, he⟩ := hx q rfl
    obtain rfl := h
    exact ⟨rfl, hs, he⟩
  | error e =>
    obtain ⟨q, rfl⟩ := h
    exact ⟨rfl, rfl, rfl⟩

/-- Code does not touch the marks. -/
theorem Marked.withCode {failure : Option String} {r : Report} (h : r.Marked failure)
    (c : Option Pe.Snippet) : (Pipeline.withCode c r).Marked failure := by
  cases c with
  | none => exact h
  | some c => exact ⟨h.isPe, h.substituted, h.error⟩

end Report

/-! ## Marks in documents -/

namespace Wire

/-- Members after those of a report, under other names, hide none of its fields. -/
theorem member?_report {i : Nat} {name : String} {s : Option Json} {r : Report}
    {more : List (String × Json)} (hi : reportNames[i]? = some name)
    (hs : (reportSlots r)[i]? = some s) (hmore : more.lookup name = none) :
    (Json.obj (reportMembers r ++ more)).member? name = s := by
  have hn : reportNames.Nodup := by decide
  show (reportMembers r ++ more).lookup name = s
  rw [List.lookup_append, hmore, Option.or_none]
  exact Json.lookup_present hn hi hs

theorem shows_report {failure : Option String} {r : Report} {more : List (String × Json)}
    (h : r.Marked failure)
    (hmore : ∀ name ∈ ["is_pe", "fallback", "error"], more.lookup name = none) :
    Shows failure (.obj (reportMembers r ++ more)) where
  isPe := by
    rw [member?_report (i := 18) rfl rfl (hmore _ (by decide)), h.isPe]
  substituted := by
    rw [member?_report (i := 19) rfl rfl (hmore _ (by decide)), h.substituted]
  error := by
    rw [member?_report (i := 20) rfl rfl (hmore _ (by decide)), h.error]

/-- **A report as a document** shows its marks. -/
theorem shows_ofReport {failure : Option String} {r : Report} (h : r.Marked failure) :
    Shows failure (ofReport r) := by
  have hs : Shows failure (.obj (reportMembers r ++ [])) := shows_report h fun _ _ => rfl
  rwa [List.append_nil] at hs

end Wire

/-- **The document of an upload** shows the marks of its report. -/
theorem Client.shows_of_uploadBody {failure : Option String} {i : Identity} {r : Report}
    {body : Json} (h : r.Marked failure) (hb : uploadBody i r = .ok body) :
    Wire.Shows failure body := by
  obtain rfl := Except.ok.inj hb
  refine Wire.shows_report h fun name hname => ?_
  simp only [List.mem_cons, List.not_mem_nil, or_false] at hname
  rcases hname with rfl | rfl | rfl <;> rfl

/-! ## Judgements -/

/-- The turns in which the model was asked. -/
def asked (ts : List Turn) : List Turn := ts.filter (·.request.consults)

theorem asked_append (ts us : List Turn) : asked (ts ++ us) = asked ts ++ asked us :=
  List.filter_append ..

theorem asked_eq_nil {ts : List Turn} (h : ∀ t ∈ ts, t.request.consults = false) :
    asked ts = [] :=
  List.filter_eq_nil_iff.2 fun t ht => by rw [h t ht]; exact Bool.false_ne_true

theorem asked_of_reads {ts : List Turn} (h : ∀ t ∈ ts, t.request.reads = true) : asked ts = [] :=
  asked_eq_nil fun t ht => Request.not_consults_of_reads (h t ht)

theorem asked_log (w : World) (line : LogLine) : asked [⟨w, .log line⟩] = [] := rfl

open Program

variable {s : Surroundings}

namespace Judgement

/-- A stand-in is no model. -/
theorem substitute_consults (standIn : StandIn) (p : Path) (fp : Option Fingerprint) :
    (substitute standIn p fp).Only (·.consults = false) := by
  have hsample : (sample p fp).Only (·.consults = false) :=
    .bind (only_request rfl) fun _ => only_pure _
  cases standIn with
  | samples => exact hsample
  | other name =>
    refine .bind (only_request rfl) fun answer => ?_
    split
    · exact only_pure _
    · exact .bind (only_log rfl) fun _ => hsample

/-- **A judgement** asks the model once. -/
theorem judge_judged (standIn : StandIn) (p : Path) (fp : Option Fingerprint) :
    (judge standIn p fp).Ensures s fun ts r => ∃ v, v.around = s ∧
      asked ts = [⟨v, .consult p fp⟩] ∧ r.Judged (v.answer (.consult p fp)).1 := by
  unfold judge consult
  rw [ensures_bind, ensures_bind, ensures_request]
  intro v hv
  rw [ensures_pure]
  cases ha : (v.answer (.consult p fp)).1 with
  | ok q =>
    dsimp only [consultation]
    rw [ensures_bind, ensures_log]
    intro v₁ _
    refine ⟨v, hv, rfl, ?_⟩
    rw [ha]
    rfl
  | error e =>
    dsimp only [consultation]
    rw [ensures_bind, ensures_log]
    intro v₁ _
    rw [ensures_bind]
    refine (substitute_consults standIn p fp).ensures.mono fun us q hus => ?_
    refine ⟨v, hv, ?_, ?_⟩
    · simp only [asked_append, asked_log, asked_eq_nil hus, List.append_nil]
      rfl
    · rw [ha]
      exact ⟨q, rfl⟩

end Judgement

/-! ## Scans -/

namespace Pipeline

/-- **The scan of an image** asks once, and reports that judgement with the code. -/
theorem scanImage_judged (l : Pipeline) (task : ScanTask) (fp : Option Fingerprint) :
    (l.scanImage task fp).Ensures s fun ts r => ∃ v q c, v.around = s ∧
      asked ts = [⟨v, .consult task.path fp⟩] ∧
      q.Judged (v.answer (.consult task.path fp)).1 ∧ r = withCode c q := by
  unfold scanImage
  rw [ensures_bind]
  refine (code_only task.path).ensures.mono fun ts c hts => ?_
  rw [ensures_bind]
  generalize c.filter _ = shown
  have hannounce : (announce task.filename shown).Only (·.consults = false) := by
    cases shown with
    | none => exact only_pure _
    | some c => exact only_request rfl
  refine hannounce.ensures.mono fun us _ hus => ?_
  rw [ensures_bind, ensures_log]
  intro v₁ _
  rw [ensures_bind]
  refine (Judgement.judge_judged l.standIn task.path fp).mono ?_
  rintro ws q ⟨v, hv, hws, hq⟩
  rw [ensures_bind, ensures_log]
  intro v₂ _
  -- every judgement is of an image, so to say so again changes nothing
  have hpe : { q with isPe := true } = q := by rw [← hq.isPe]
  refine ⟨v, q, shown, hv, ?_, hq, by rw [hpe]⟩
  simp only [asked_append, asked_of_reads hts, asked_eq_nil hus, hws, asked_log, List.nil_append,
    List.append_nil]

/-- **An examination** says of the file at one turn whether it is an image; if it is, the model is
asked once, and its judgement reported with the code. -/
theorem examine_judged (l : Pipeline) (task : ScanTask) :
    (l.examine task).Ensures s fun ts r => ∃ t ∈ ts,
      (Pe.probeFile t.world.files task.path = .ok true ↔ r.isPe = true) ∧
      (r.isPe = true → ∃ v fp q c, v.around = s ∧ asked ts = [⟨v, .consult task.path fp⟩] ∧
        q.Judged (v.answer (.consult task.path fp)).1 ∧ r = withCode c q) := by
  unfold examine
  rw [ensures_bind, ensures_log]
  intro v₁ _
  rw [ensures_bind]
  refine l.delay_only.ensures.mono fun ts₀ _ h₀ => ?_
  rw [ensures_bind]
  refine (fingerprint_only task.path).ensures.mono fun ts₁ fp h₁ => ?_
  rw [ensures_bind]
  refine (probe_ensures task.path).mono ?_
  rintro ts₂ isPe ⟨h₂, t, ht, hpe⟩
  rw [ensures_bind, ensures_log]
  intro v₂ _
  cases isPe with
  | false =>
    simp only [Bool.false_eq_true, if_false]
    rw [ensures_bind, ensures_pure, ensures_bind, ensures_log]
    intro v₃ _
    have hplain : Pe.probeFile t.world.files task.path ≠ .ok true := fun h => nomatch hpe.2 h
    exact ⟨t, by simp [ht], ⟨fun h => absurd h hplain, nofun⟩, nofun⟩
  | true =>
    simp only [if_true]
    rw [ensures_bind]
    refine (l.scanImage_judged task fp).mono ?_
    rintro us r ⟨v, q, c, hv, hus, hq, rfl⟩
    rw [ensures_bind, ensures_log]
    intro v₃ _
    refine ⟨t, by simp [ht], iff_of_true (hpe.1 rfl) ((withCode_isPe c q).trans hq.isPe),
      fun _ => ⟨v, fp, q, c, hv, ?_, hq, rfl⟩⟩
    simp only [asked_append, asked_of_reads h₀, asked_of_reads h₁, asked_of_reads h₂, hus, asked_log,
      List.nil_append, List.append_nil]

/-- **A scan** tells its listeners and hands over one report, and posts that one. -/
theorem scan_judged (l : Pipeline) (task : ScanTask) :
    (l.scan task).Ensures s fun ts r => ∃ (front : List Turn) (w w' : World) (back : List Turn),
      ts = front ++ ⟨w, .emit (.report r)⟩ :: ⟨w', .submit r⟩ :: back ∧
      (∀ t ∈ ts, ∀ p, t.request = .post p → Client.uploadBody l.client.identity r = .ok p.body) ∧
      ∃ t ∈ front, (Pe.probeFile t.world.files task.path = .ok true ↔ r.isPe = true) ∧
        (r.isPe = true → ∃ v fp q c, v.around = s ∧ asked ts = [⟨v, .consult task.path fp⟩] ∧
          q.Judged (v.answer (.consult task.path fp)).1 ∧ r = withCode c q) := by
  unfold scan Client.submit
  rw [ensures_bind]
  refine ((l.examine_only task).ensures.and (l.examine_judged task)).mono ?_
  rintro front r ⟨hfront, t, ht, hprobe, himage⟩
  rw [ensures_bind, ensures_request]
  intro w _
  rw [ensures_bind, ensures_bind, ensures_request]
  intro w' _
  refine ((l.client.upload_posts _ _).ensures.and (l.client.upload_only _ _).ensures).mono ?_
  rintro back _ ⟨hbody, hback⟩
  refine ⟨front, w, w', back, by simp, ?_, t, ht, hprobe, fun hpe => ?_⟩
  · intro u hu p hp
    simp only [List.append_nil, List.mem_append, List.mem_singleton] at hu
    rcases hu with hu | rfl | rfl | hu
    · have hno := Request.not_posts_of_examines (hfront u hu)
      rw [hp] at hno
      cases hno
    · cases hp
    · cases hp
    · rw [hbody u hu p hp]
      rfl
  · obtain ⟨v, fp, q, c, hv, hfr, hq, hr⟩ := himage hpe
    refine ⟨v, fp, q, c, hv, ?_, hq, hr⟩
    have hnone : asked back = [] := asked_eq_nil fun u hu =>
      Request.not_consults_of_collects (hback u hu)
    simp only [asked_append, hfr, hnone, List.append_nil]
    rfl

/-- **How reports are marked.** Whatever the model prints or fails with, and whatever stands in for
it: a judgement carries the model's failure as its marks and, without one, is the model's report. A
scan tells its listeners and posts one report; if the file is an image, that is such a judgement, with
the code, and all that is told and posted shows its marks. -/
theorem scan_marked (s : Surroundings) (say : Response.Objections)
    (answers : Nat → FileTree → Path → Option Fingerprint → ModelAnswer) :
    (∀ standIn p fp, (Judgement.judge standIn p fp).Ensures (s.answering say answers) fun ts r =>
      ∃ v, asked ts = [⟨v, .consult p fp⟩] ∧
        ∃ x, x = (answers v.consultations v.files p fp).outcome say p fp ∧
          r.Marked (failure? x) ∧ ∀ q, x = .ok q → r = { q with isPe := true }) ∧
    ∀ (l : Pipeline) (task : ScanTask),
      (l.scan task).Ensures (s.answering say answers) fun ts r => ∃ (front : List Turn) (w w' : World)
        (back : List Turn),
        ts = front ++ ⟨w, .emit (.report r)⟩ :: ⟨w', .submit r⟩ :: back ∧
        (∀ t ∈ ts, ∀ p, t.request = .post p → Client.uploadBody l.client.identity r = .ok p.body) ∧
        ∃ t ∈ front, (Pe.probeFile t.world.files task.path = .ok true ↔ r.isPe = true) ∧
          (r.isPe = true → ∃ v fp, asked ts = [⟨v, .consult task.path fp⟩] ∧
            ∃ x, x = (answers v.consultations v.files task.path fp).outcome say task.path fp ∧
              r.Marked (failure? x) ∧
              (∀ q, x = .ok q → ∃ c, r = withCode c { q with isPe := true }) ∧
              Wire.Shows (failure? x) (Wire.ofReport r) ∧
              ∀ t ∈ ts, ∀ p, t.request = .post p → Wire.Shows (failure? x) p.body) := by
  refine ⟨fun standIn p fp => ?_, fun l task => ?_⟩
  · refine (Judgement.judge_judged standIn p fp).mono ?_
    rintro ts r ⟨v, hv, hts, hr⟩
    rw [answer_consult hv] at hr
    exact ⟨v, hts, _, rfl, hr.marked fun q hq => ModelAnswer.outcome_unmarked hq, fun q hq =>
      (hq ▸ hr).passed⟩
  · refine (l.scan_judged task).mono ?_
    rintro ts r ⟨front, w, w', back, hts, hposts, t, ht, hprobe, himage⟩
    refine ⟨front, w, w', back, hts, hposts, t, ht, hprobe, fun hpe => ?_⟩
    obtain ⟨v, fp, q, c, hv, hasked, hq, rfl⟩ := himage hpe
    rw [answer_consult hv] at hq
    have hmarked := (hq.marked fun q hq => ModelAnswer.outcome_unmarked hq).withCode c
    exact ⟨v, fp, hasked, _, rfl, hmarked, fun q' hq' => ⟨c, (hq' ▸ hq).passed ▸ rfl⟩,
      Wire.shows_ofReport hmarked, fun u hu p hp =>
        Client.shows_of_uploadBody hmarked (hposts u hu p hp)⟩

end Pipeline

end DownloadTriage
