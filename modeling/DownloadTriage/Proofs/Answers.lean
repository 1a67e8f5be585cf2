import DownloadTriage.Model.Response
import DownloadTriage.Proofs.Decoding
import DownloadTriage.Proofs.Grammar

/-!
# What a model's answer means

A printed text is judged in three steps, each of which only comes up where the ones before it leave the
text open: whether it is one document (`Document`), whether the document reports a failure (`Fails`),
and whether it is a response (`IsResponse`). None of the three mentions the reader. A document that
reports a failure is not asked whether it is a response as well.

* `read_eq_reported_iff`, `read_eq_ok_iff`, `read_eq_invalid_iff`: the three outcomes, each by itself.
* `shows_report`: the report of a response shows the evidence that the response gives.
* `read_answers`: both together.
-/

namespace DownloadTriage.Response

open Json Wire

/-! ## Failures -/

/-- **The failure that a document reports**: an object's member `error` that is not null, by its text,
or as it is written on one line where it is none. -/
inductive Fails : Json → String → Prop
  | text {ms : List (String × Json)} {s : String} (h : ms.lookup "error" = some (str s)) :
      Fails (obj ms) s
  | value {ms : List (String × Json)} {w : Json} (h : ms.lookup "error" = some w) (hn : w ≠ null)
      (ht : ∀ s, w ≠ str s) : Fails (obj ms) w.compact

theorem reportedError?_eq_some_iff {v : Json} {e : String} : reportedError? v = some e ↔ Fails v e := by
  constructor
  · intro h
    cases v with
    | obj ms =>
      unfold reportedError? member? at h
      split at h
      case h_1 => cases h
      case h_2 => cases h
      case h_3 s hs => cases h; exact .text hs
      case h_4 w hnull htext hw => cases h; exact .value hw hnull htext
    | null | bool | num | str | arr | unreadable => cases h
  · intro h
    have hlookup (ms : List (String × Json)) : (obj ms).member? "error" = ms.lookup "error" := rfl
    cases h with
    | text h => rw [reportedError?, hlookup, h]
    | value h hn ht =>
      rw [reportedError?, hlookup, h]
      split
      · rename_i hw; cases hw
      · rename_i hw; exact absurd (Option.some.inj hw) hn
      · rename_i s hw; exact absurd (Option.some.inj hw) (ht s)
      · rename_i hw; rw [Option.some.inj hw]

/-! ## Responses -/

/-- The fields of a response: its label and its confidence have to be there, its lists are empty and
all else is absent where they are missing or null. -/
structure Fields (field : String → Option Json) (r : Response) : Prop where
  label : Must (Exactly str) (field "classification") r.label
  confidence : Must IsReal (field "confidence_score") r.confidence
  fileType : May (Exactly str) (field "file_type") r.fileType
  packer : May (Exactly str) (field "packer_detected") r.packer
  sectionEntropy : OrNull [] (IsList IsSectionEntropy) (field "section_entropy") r.sectionEntropy
  apiImports : OrNull [] (IsList (Exactly str)) (field "api_imports") r.apiImports
  keyStrings : OrNull [] (IsList (Exactly str)) (field "key_strings") r.keyStrings
  votesBenign : May (Exactly fun n => nat n.toNat) (field "votes_benign") r.votesBenign
  votesMalware : May (Exactly fun n => nat n.toNat) (field "votes_malware") r.votesMalware
  ensembleLabel : May (Exactly ofInt64) (field "ensemble_label") r.ensembleLabel
  ensembleScore : May IsReal (field "ensemble_score") r.ensembleScore
  ensembleClass : May (Exactly str) (field "ensemble_class") r.ensembleClass
  ensembleClassId : May (Exactly ofInt64) (field "ensemble_class_id") r.ensembleClassId
  features : May IsFeatures (field "pe_features") r.features
  graphImage : May (Exactly str) (field "cfg_image") r.graphImage

/-- **A response as a value gives it.** -/
def IsResponse (v : Json) (r : Response) : Prop := ∃ field, Gives names v field ∧ Fields field r

/-- A response is read field by field. -/
theorem ofSlots?_map_eq_some_iff (field : String → Option Json) (r : Response) :
    ofSlots? (names.map field) = some r ↔ Fields field r := by
  constructor
  · intro h
    -- each field that is read is one bind
    iterate 15 obtain ⟨_, _, h⟩ := Option.bind_eq_some_iff.1 h
    obtain rfl := Option.some.inj h
    constructor
    case label => exact reads_string.must.1 ‹_›
    case confidence => exact reads_float.must.1 ‹_›
    case fileType | packer | ensembleClass | graphImage => exact reads_string.may.1 ‹_›
    case sectionEntropy => exact reads_sectionEntropy.list.orNull.1 ‹_›
    case apiImports | keyStrings => exact reads_string.list.orNull.1 ‹_›
    case votesBenign | votesMalware => exact reads_uInt32.may.1 ‹_›
    case ensembleLabel | ensembleClassId => exact reads_int64.may.1 ‹_›
    case ensembleScore => exact reads_float.may.1 ‹_›
    case features => exact reads_features.may.1 ‹_›
  · intro h
    have hslots : names.map field = [field "classification", field "confidence_score",
      field "file_type", field "packer_detected", field "section_entropy", field "api_imports",
      field "key_strings", field "votes_benign", field "votes_malware", field "ensemble_label",
      field "ensemble_score", field "ensemble_class", field "ensemble_class_id",
      field "pe_features", field "cfg_image"] := rfl
    simp only [hslots, ofSlots?, reads_string.must.2 h.label, reads_float.must.2 h.confidence,
      reads_string.may.2 h.fileType, reads_string.may.2 h.packer,
      reads_sectionEntropy.list.orNull.2 h.sectionEntropy,
      reads_string.list.orNull.2 h.apiImports, reads_string.list.orNull.2 h.keyStrings,
      reads_uInt32.may.2 h.votesBenign, reads_uInt32.may.2 h.votesMalware,
      reads_int64.may.2 h.ensembleLabel, reads_float.may.2 h.ensembleScore,
      reads_string.may.2 h.ensembleClass, reads_int64.may.2 h.ensembleClassId,
      reads_features.may.2 h.features, reads_string.may.2 h.graphImage, Option.bind_eq_bind,
      Option.bind_some]

theorem ofJson?_eq_some_iff {v : Json} {r : Response} : ofJson? v = some r ↔ IsResponse v r :=
  reads_record (by decide) ofSlots?_map_eq_some_iff v r

/-! ## Outcomes -/

/-- The document that a printed text is, blanks around it aside. -/
def Answer (output : String) (v : Json) : Prop := Document (Utf8.bytes (trim output)) v

theorem parse?_trim {output : String} {v : Json} :
    Json.parse? (Utf8.bytes (trim output)) = some v ↔ Answer output v := parse?_eq_some_iff

theorem reportedError?_eq_none_iff {v : Json} : reportedError? v = none ↔ ∀ e, ¬ Fails v e := by
  simp only [Option.eq_none_iff_forall_ne_some, ne_eq, reportedError?_eq_some_iff]

theorem ofJson?_eq_none_iff {v : Json} : ofJson? v = none ↔ ∀ r, ¬ IsResponse v r := by
  simp only [Option.eq_none_iff_forall_ne_some, ne_eq, ofJson?_eq_some_iff]

variable {say : Objections} {output : String}

theorem read_of_fails {v : Json} {e : String} (hv : Answer output v) (he : Fails v e) :
    read say output = .error (.reported e) := by
  simp only [read, parse?_trim.2 hv, reportedError?_eq_some_iff.2 he]

theorem read_of_isResponse {v : Json} {r : Response} (hv : Answer output v) (he : ∀ e, ¬ Fails v e)
    (hr : IsResponse v r) : read say output = .ok r := by
  simp only [read, parse?_trim.2 hv, reportedError?_eq_none_iff.2 he, ofJson?_eq_some_iff.2 hr]

theorem read_of_noDocument (h : ∀ v, ¬ Answer output v) :
    read say output = .error (.invalidResponse (say.ofText (trim output))) := by
  cases hparse : Json.parse? (Utf8.bytes (trim output)) with
  | none => simp only [read, hparse]
  | some v => exact absurd (parse?_trim.1 hparse) (h v)

theorem read_of_noResponse {v : Json} (hv : Answer output v) (he : ∀ e, ¬ Fails v e)
    (hr : ∀ r, ¬ IsResponse v r) :
    read say output = .error (.invalidResponse (say.ofDocument v)) := by
  simp only [read, parse?_trim.2 hv, reportedError?_eq_none_iff.2 he, ofJson?_eq_none_iff.2 hr]

theorem read_of_neither
    (h : ∀ v, Answer output v → (∀ e, ¬ Fails v e) ∧ ∀ r, ¬ IsResponse v r) :
    ∃ reason, read say output = .error (.invalidResponse reason) := by
  by_cases hdocument : ∃ v, Answer output v
  · obtain ⟨v, hv⟩ := hdocument
    exact ⟨_, read_of_noResponse hv (h v hv).1 (h v hv).2⟩
  · exact ⟨_, read_of_noDocument (not_exists.1 hdocument)⟩

/-- Every text has one of the three outcomes. -/
theorem outcomes (output : String) : (∃ v e, Answer output v ∧ Fails v e) ∨
    (∃ v r, Answer output v ∧ (∀ e, ¬ Fails v e) ∧ IsResponse v r) ∨
    ∀ v, Answer output v → (∀ e, ¬ Fails v e) ∧ ∀ r, ¬ IsResponse v r := by
  by_cases hfails : ∃ v e, Answer output v ∧ Fails v e
  · exact .inl hfails
  have hno {v : Json} (hv : Answer output v) (e : String) : ¬ Fails v e :=
    fun he => hfails ⟨v, e, hv, he⟩
  by_cases hresponse : ∃ v r, Answer output v ∧ IsResponse v r
  · obtain ⟨v, r, hv, hr⟩ := hresponse
    exact .inr (.inl ⟨v, r, hv, hno hv, hr⟩)
  · exact .inr (.inr fun v hv => ⟨hno hv, fun r hr => hresponse ⟨v, r, hv, hr⟩⟩)

theorem read_eq_reported_iff {e : String} :
    read say output = .error (.reported e) ↔ ∃ v, Answer output v ∧ Fails v e := by
  refine ⟨fun h => ?_, fun ⟨v, hv, he⟩ => read_of_fails hv he⟩
  rcases outcomes output with ⟨v, e', hv, he⟩ | ⟨v, r, hv, he, hr⟩ | hneither
  · cases h.symm.trans (read_of_fails hv he)
    exact ⟨v, hv, he⟩
  · cases h.symm.trans (read_of_isResponse hv he hr)
  · obtain ⟨reason, hreason⟩ : ∃ reason, read say output = _ := read_of_neither hneither
    cases h.symm.trans hreason

theorem read_eq_ok_iff {r : Response} : read say output = .ok r ↔
    ∃ v, Answer output v ∧ (∀ e, ¬ Fails v e) ∧ IsResponse v r := by
  refine ⟨fun h => ?_, fun ⟨v, hv, he, hr⟩ => read_of_isResponse hv he hr⟩
  rcases outcomes output with ⟨v, e, hv, he⟩ | ⟨v, r', hv, he, hr⟩ | hneither
  · cases h.symm.trans (read_of_fails hv he)
  · cases h.symm.trans (read_of_isResponse hv he hr)
    exact ⟨v, hv, he, hr⟩
  · obtain ⟨reason, hreason⟩ : ∃ reason, read say output = _ := read_of_neither hneither
    cases h.symm.trans hreason

theorem read_eq_invalid_iff : (∃ reason, read say output = .error (.invalidResponse reason)) ↔
    ∀ v, Answer output v → (∀ e, ¬ Fails v e) ∧ ∀ r, ¬ IsResponse v r := by
  refine ⟨fun ⟨reason, h⟩ => ?_, read_of_neither⟩
  rcases outcomes output with ⟨v, e, hv, he⟩ | ⟨v, r, hv, he, hr⟩ | hneither
  · cases h.symm.trans (read_of_fails hv he)
  · cases h.symm.trans (read_of_isResponse hv he hr)
  · exact hneither

/-! ## The report of a response -/

/-- How the votes of a response are shown: all of them, with their sum, or none where a side was not
counted. -/
inductive Votes (r : Response) (p : Report) : Prop
  | counted {b m t : UInt32} (hb : r.votesBenign = some b) (hm : r.votesMalware = some m)
      (benign : p.votesBenign = some b) (malware : p.votesMalware = some m)
      (voting : p.voting = some ⟨b, m, t⟩)
      (total : b.toNat + m.toNat < UInt32.size → t.toNat = b.toNat + m.toNat)
  | uncounted (h : r.votesBenign = none ∨ r.votesMalware = none) (benign : p.votesBenign = none)
      (malware : p.votesMalware = none) (voting : p.voting = none)

/-- **The report shows the evidence of the response**, as that of an image that a model judged. -/
structure Shows (r : Response) (p : Report) : Prop where
  isPe : p.isPe = true
  substituted : p.substituted = false
  error : p.error = none
  confidence : p.confidence = some r.confidence
  findings : ∃ k, p.findings = some k ∧ k.sectionEntropy = r.sectionEntropy ∧
    k.apiImports = r.apiImports ∧ k.keyStrings = r.keyStrings
  votes : Votes r p
  ensembleLabel : p.ensembleLabel = r.ensembleLabel
  ensembleScore : p.ensembleScore = r.ensembleScore
  ensembleClass : p.ensembleClass = r.ensembleClass
  ensembleClassId : p.ensembleClassId = r.ensembleClassId
  features : p.features = r.features

variable (image : Option String → Option String) (filename : String)
  (fingerprint : Option Fingerprint) (r : Response)

theorem votes_report : Votes r (r.report image filename fingerprint) := by
  have hbenign : (r.report image filename fingerprint).votesBenign = r.voting.map (·.benign) := rfl
  have hmalware : (r.report image filename fingerprint).votesMalware = r.voting.map (·.malware) := rfl
  have hvoting : (r.report image filename fingerprint).voting = r.voting := rfl
  cases hb : r.votesBenign with
  | none =>
    have hnone : r.voting = none := by rw [voting, hb]
    rw [hnone] at hbenign hmalware hvoting
    exact .uncounted (.inl hb) hbenign hmalware hvoting
  | some b =>
    cases hm : r.votesMalware with
    | none =>
      have hnone : r.voting = none := by rw [voting, hb, hm]
      rw [hnone] at hbenign hmalware hvoting
      exact .uncounted (.inr hm) hbenign hmalware hvoting
    | some m =>
      have hsome : r.voting = some ⟨b, m, b + m⟩ := by rw [voting, hb, hm]
      rw [hsome] at hbenign hmalware hvoting
      refine .counted hb hm hbenign hmalware hvoting fun hsum => ?_
      rw [UInt32.toNat_add, Nat.mod_eq_of_lt hsum]

theorem shows_report : Shows r (r.report image filename fingerprint) where
  isPe := rfl
  substituted := rfl
  error := rfl
  confidence := rfl
  findings := ⟨r.findings, rfl, rfl, rfl, rfl⟩
  votes := votes_report image filename fingerprint r
  ensembleLabel := rfl
  ensembleScore := rfl
  ensembleClass := rfl
  ensembleClassId := rfl
  features := rfl

/-- **What a printed text answers.** It reports a failure exactly if it is a document that does, whatever
else that document says. It is a response exactly if it is a document that reports no failure and
gives the fields of a response, and then the report of a file shows what the fields say. Any other
text is invalid: one that is no document, and a document that is neither, each for the reason that the
reader gives. -/
theorem read_answers (say : Objections) (output : String) :
    (∀ e, read say output = .error (.reported e) ↔ ∃ v, Answer output v ∧ Fails v e) ∧
    (∀ r, read say output = .ok r ↔
      ∃ v, Answer output v ∧ (∀ e, ¬ Fails v e) ∧ IsResponse v r) ∧
    ((∃ reason, read say output = .error (.invalidResponse reason)) ↔
      ∀ v, Answer output v → (∀ e, ¬ Fails v e) ∧ ∀ r, ¬ IsResponse v r) ∧
    ((∀ v, ¬ Answer output v) →
      read say output = .error (.invalidResponse (say.ofText (trim output)))) ∧
    (∀ v, Answer output v → (∀ e, ¬ Fails v e) → (∀ r, ¬ IsResponse v r) →
      read say output = .error (.invalidResponse (say.ofDocument v))) ∧
    ∀ r, Shows r (r.report image filename fingerprint) :=
  ⟨fun _ => read_eq_reported_iff, fun _ => read_eq_ok_iff, read_eq_invalid_iff, read_of_noDocument,
    fun _ => read_of_noResponse, shows_report image filename fingerprint⟩

end DownloadTriage.Response
