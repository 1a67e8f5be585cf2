import DownloadTriage.Collector.Client
import DownloadTriage.Proofs.Members

/-!
# Reports survive the wire

What a record is written as is read back as that record, however the members of its objects are
arranged. The only values that JSON has no place for are the doubles that are not finite: they are
written as null, and null is read as an absent value, as zero, or not at all, so a report comes back
exactly if all its doubles are finite (`Report.IsFinite`).

The rule that leaves a field out and the rule for a field that is missing are given apart; the lemma
of a record is where the two meet.

* `asReport_arrange`: a report among foreign members.
* `upload_roundtrip`: the report by itself, and in the document of an upload.
-/

namespace DownloadTriage.Wire

open Json

/-! ## Words and doubles -/

theorem asUInt32_nat (n : UInt32) : asUInt32 (nat n.toNat) = some n := by
  have hlt := n.toNat_lt
  have hread : asInteger 0 (UInt32.size - 1) (.num (.integer n.toNat)) = some (n.toNat : Int) :=
    if_pos ⟨by omega, by simp only [UInt32.size]; omega⟩
  rw [asUInt32, asNatBelow, nat, hread]
  simp

theorem asUInt64_nat (n : UInt64) : asUInt64 (nat n.toNat) = some n := by
  have hlt := n.toNat_lt
  have hread : asInteger 0 (UInt64.size - 1) (.num (.integer n.toNat)) = some (n.toNat : Int) :=
    if_pos ⟨by omega, by simp only [UInt64.size]; omega⟩
  rw [asUInt64, asNatBelow, nat, hread]
  simp

theorem asInt64_ofInt64 (i : Int64) : asInt64 (ofInt64 i) = some i := by
  have hread : asInteger Int64.minValue.toInt Int64.maxValue.toInt (.num (.integer i.toInt)) =
      some i.toInt := if_pos ⟨i.minValue_le_toInt, i.toInt_le⟩
  rw [asInt64, ofInt64, hread]
  simp

variable (a : Arrangement)

@[simp] theorem arrange_nat (n : Nat) : a.arrange (nat n) = nat n := a.num _

@[simp] theorem arrange_ofInt64 (i : Int64) : a.arrange (ofInt64 i) = ofInt64 i := a.num _

@[simp] theorem arrange_float (x : Binary64) : a.arrange (float x) = float x := by
  unfold float
  split
  · exact a.num _
  · exact a.null

/-- What is not finite is written as null, which is no number. -/
theorem asFloat_float {x : Binary64} : asFloat (float x) = some x ↔ x.isFinite := by
  unfold float
  split
  next h => simp [asFloat, h]
  next h => simp [asFloat, h]

/-- Nor is it the zero that stands for a missing one. -/
theorem orNull_float {x : Binary64} : orNull 0 asFloat (some (float x)) = some x ↔ x.isFinite := by
  unfold float
  split
  next h => simp [orNull, Json.optional, asOption, asFloat, h]
  next h =>
    have hne : 0 ≠ x := by
      rintro rfl
      exact h (by decide)
    simp [orNull, Json.optional, asOption, h, hne]

/-! ## Lists that are written only when they have items -/

theorem orElse_unlessEmpty {α : Type} {write : α → Json} {read : Json.Decoder α} {xs : List α} :
    orElse [] (asList read) ((unlessEmpty write xs).map a.arrange) = some xs ↔
      ∀ x ∈ xs, read (a.arrange (write x)) = some x := by
  cases xs with
  | nil => simp [unlessEmpty, orElse]
  | cons x xs =>
    rw [← asList_arrange a]
    rfl

/-! ## Records -/

theorem asVerdict_ofVerdict (v : Verdict) : asVerdict (ofVerdict v) = some v := by
  cases v <;> rfl

theorem asFingerprint_arrange (f : Fingerprint) :
    asFingerprint (a.arrange (ofFingerprint f)) = some f := by
  rw [asFingerprint, ofFingerprint, slots?_arrange_assemble a (by decide) rfl]
  simp [required, asString]

theorem asVendor_arrange (x : Vendor) : asVendor (a.arrange (ofVendor x)) = some x := by
  rw [asVendor, ofVendor, slots?_arrange_assemble a (by decide) rfl]
  simp [required, asString]

theorem asSignature_arrange (x : Signature) :
    asSignature (a.arrange (ofSignature x)) = some x := by
  rw [asSignature, ofSignature, slots?_arrange_assemble a (by decide) rfl]
  simp [required, asString]

theorem asSectionEntropy_arrange (x : SectionEntropy) :
    asSectionEntropy (a.arrange (ofSectionEntropy x)) = some x ↔ x.entropy.isFinite := by
  obtain ⟨name, entropy, size⟩ := x
  have hsize : Json.optional asUInt64 (size.map (a.arrange ∘ fun n => nat n.toNat)) = some size :=
    (optional_arrange a rfl).2 fun n _ => by rw [arrange_nat, asUInt64_nat]
  rw [asSectionEntropy, ofSectionEntropy, slots?_arrange_assemble a (by decide) rfl, ← asFloat_float]
  simp [required, asString, hsize, Option.bind_eq_some_iff]

theorem asVoting_arrange (x : Voting) : asVoting (a.arrange (ofVoting x)) = some x := by
  rw [asVoting, ofVoting, slots?_arrange_assemble a (by decide) rfl]
  simp [required, asUInt32_nat]

theorem asCodeLine_arrange (x : CodeLine) : asCodeLine (a.arrange (ofCodeLine x)) = some x := by
  rw [asCodeLine, ofCodeLine, slots?_arrange_assemble a (by decide) rfl]
  simp [required, asString]

theorem asCodeInfo_arrange (x : CodeInfo) : asCodeInfo (a.arrange (ofCodeInfo x)) = some x := by
  have hwide : Json.optional asBool (x.is64.map (a.arrange ∘ bool)) = some x.is64 :=
    (optional_arrange a rfl).2 fun b _ => by rw [a.bool, asBool]
  rw [asCodeInfo, ofCodeInfo, slots?_arrange_assemble a (by decide) rfl]
  simp [required, asString, asUInt32_nat, hwide]

theorem asFeatures_arrange (x : ImageFeatures) :
    asFeatures (a.arrange (ofFeatures x)) = some x ↔ x.entropy.isFinite := by
  obtain ⟨fileSize, entropy, sections, libraries, resources, isPacked⟩ := x
  have hword (n : UInt32) : orNull 0 asUInt32 (some (nat n.toNat)) = some n := by
    simp [orNull, Json.optional, (asOption_eq_some rfl).2 (asUInt32_nat n)]
  have hlong (n : UInt64) : orNull 0 asUInt64 (some (nat n.toNat)) = some n := by
    simp [orNull, Json.optional, (asOption_eq_some rfl).2 (asUInt64_nat n)]
  have hbool (b : Bool) : orNull false asBool (some (bool b)) = some b := rfl
  rw [asFeatures, ofFeatures, slots?_arrange_assemble a (by decide) rfl, ← orNull_float]
  simp [hword, hlong, hbool, Option.bind_eq_some_iff]

theorem asFindings_arrange (x : KeyFindings) :
    asFindings (a.arrange (ofFindings x)) = some x ↔ ∀ s ∈ x.sectionEntropy, s.entropy.isFinite := by
  obtain ⟨fileType, packer, signature, sections, imports, strings⟩ := x
  have hstrs (ss : List String) : orElse [] (asList asString)
      ((unlessEmpty str ss).map a.arrange) = some ss :=
    (orElse_unlessEmpty a).2 fun s _ => by rw [a.str, asString]
  have hsections : orElse [] (asList asSectionEntropy)
      (some (a.arrange (arr (sections.map ofSectionEntropy)))) = some sections ↔
        ∀ s ∈ sections, s.entropy.isFinite :=
    (asList_arrange a).trans (forall₂_congr fun s _ => asSectionEntropy_arrange a s)
  rw [asFindings, ofFindings, slots?_arrange_assemble a (by decide) rfl, ← hsections]
  simp [required, asString, asSignature_arrange, hstrs, Option.bind_eq_some_iff]

/-! ## Reports -/

/-- A report is read field by field. -/
theorem reportOfSlots?_eq_some {a b c d e f g h i j k l m n o p q r s t u : Option Json} {x : Report} :
    reportOfSlots? [a, b, c, d, e, f, g, h, i, j, k, l, m, n, o, p, q, r, s, t, u] = some x ↔
      required asString a = some x.filename ∧ required asFingerprint b = some x.fingerprint ∧
      required asVerdict c = some x.verdict ∧ Json.optional asFloat d = some x.confidence ∧
      Json.optional asString e = some x.family ∧ Json.optional asVendor f = some x.vendor ∧
      Json.optional asFindings g = some x.findings ∧ Json.optional asUInt32 h = some x.votesBenign ∧
      Json.optional asUInt32 i = some x.votesMalware ∧ Json.optional asVoting j = some x.voting ∧
      Json.optional asInt64 k = some x.ensembleLabel ∧
      Json.optional asFloat l = some x.ensembleScore ∧
      Json.optional asString m = some x.ensembleClass ∧
      Json.optional asInt64 n = some x.ensembleClassId ∧
      Json.optional asFeatures o = some x.features ∧ Json.optional asString p = some x.graphImage ∧
      Json.optional (asList asCodeLine) q = some x.code ∧
      Json.optional asCodeInfo r = some x.codeInfo ∧ required asBool s = some x.isPe ∧
      orElse false asBool t = some x.substituted ∧ Json.optional asString u = some x.error := by
  constructor
  · intro h
    -- each field that is read is one bind
    iterate 21 obtain ⟨_, _, h⟩ := Option.bind_eq_some_iff.1 h
    obtain rfl := Option.some.inj h
    refine ⟨?_, ?_, ?_, ?_, ?_, ?_, ?_, ?_, ?_, ?_, ?_, ?_, ?_, ?_, ?_, ?_, ?_, ?_, ?_, ?_, ?_⟩
    all_goals assumption
  · rintro ⟨ha, hb, hc, hd, he, hf, hg, hh, hi, hj, hk, hl, hm, hn, ho, hp, hq, hr, hs, ht, hu⟩
    simp only [reportOfSlots?, ha, hb, hc, hd, he, hf, hg, hh, hi, hj, hk, hl, hm, hn, ho, hp, hq, hr,
      hs, ht, hu, Option.bind_eq_bind, Option.bind_some]

theorem asReport_arrange (extra : List (String × Json))
    (h : (reportNames ++ extra.map Prod.fst).Nodup) (r : Report) :
    asReport (a.arrange (obj (reportMembers r ++ extra))) = some r ↔ r.IsFinite := by
  -- what is read back in any case
  have hstr (o : Option String) : Json.optional asString (o.map (a.arrange ∘ str)) = some o :=
    (optional_arrange a rfl).2 fun s _ => by rw [a.str, asString]
  have hvotes (o : Option UInt32) :
      Json.optional asUInt32 (o.map (a.arrange ∘ fun n => nat n.toNat)) = some o :=
    (optional_arrange a rfl).2 fun n _ => by rw [arrange_nat, asUInt32_nat]
  have hint (o : Option Int64) : Json.optional asInt64 (o.map (a.arrange ∘ ofInt64)) = some o :=
    (optional_arrange a rfl).2 fun i _ => by rw [arrange_ofInt64, asInt64_ofInt64]
  have hvendor : Json.optional asVendor (r.vendor.map (a.arrange ∘ ofVendor)) = some r.vendor :=
    (optional_arrange a rfl).2 fun x _ => asVendor_arrange a x
  have hvoting : Json.optional asVoting (r.voting.map (a.arrange ∘ ofVoting)) = some r.voting :=
    (optional_arrange a rfl).2 fun x _ => asVoting_arrange a x
  have hcode : Json.optional (asList asCodeLine)
      (r.code.map (a.arrange ∘ fun ls => arr (ls.map ofCodeLine))) = some r.code :=
    (optional_arrange a rfl).2 fun ls _ => (asList_arrange a).2 fun x _ => asCodeLine_arrange a x
  have hinfo : Json.optional asCodeInfo (r.codeInfo.map (a.arrange ∘ ofCodeInfo)) =
      some r.codeInfo := (optional_arrange a rfl).2 fun x _ => asCodeInfo_arrange a x
  have hverdict : asVerdict (a.arrange (ofVerdict r.verdict)) = some r.verdict := by
    rw [ofVerdict, a.str]
    exact asVerdict_ofVerdict r.verdict
  have hmark : orElse false asBool
      ((if r.substituted then some (bool true) else none).map a.arrange) = some r.substituted := by
    cases r.substituted <;> simp [orElse, asBool]
  -- where a double decides
  have hfloat (o : Option Binary64) :
      Json.optional asFloat (o.map (a.arrange ∘ float)) = some o ↔ ∀ x ∈ o, x.isFinite :=
    (optional_arrange a rfl).trans (forall₂_congr fun x _ => by rw [arrange_float, asFloat_float])
  have hfindings : Json.optional asFindings (r.findings.map (a.arrange ∘ ofFindings)) =
      some r.findings ↔ ∀ k ∈ r.findings, ∀ s ∈ k.sectionEntropy, s.entropy.isFinite :=
    (optional_arrange a rfl).trans (forall₂_congr fun k _ => asFindings_arrange a k)
  have hfeatures : Json.optional asFeatures (r.features.map (a.arrange ∘ ofFeatures)) =
      some r.features ↔ ∀ f ∈ r.features, f.entropy.isFinite :=
    (optional_arrange a rfl).trans (forall₂_congr fun f _ => asFeatures_arrange a f)
  rw [asReport, reportMembers, slots?_arrange a extra h rfl, Option.bind_some, reportSlots]
  simp only [List.map_cons, List.map_nil, Option.map_some, Option.map_map]
  rw [reportOfSlots?_eq_some, Report.IsFinite, ← hfloat, ← hfloat, ← hfindings, ← hfeatures]
  simp only [required, Option.bind_some, a.str, a.bool, asString, asBool, asFingerprint_arrange, hstr,
    hvotes, hint, hvendor, hvoting, hcode, hinfo, hverdict, hmark, true_and, and_true]
  constructor
  · rintro ⟨hconfidence, hfound, hscore, hmeasured⟩
    exact ⟨hconfidence, hscore, hmeasured, hfound⟩
  · rintro ⟨hconfidence, hscore, hmeasured, hfound⟩
    exact ⟨hconfidence, hfound, hscore, hmeasured⟩

theorem ofReport_arrange (r : Report) : asReport (a.arrange (ofReport r)) = some r ↔ r.IsFinite := by
  have h := asReport_arrange a [] (by decide) r
  rwa [List.append_nil] at h

/-- **A report loses nothing on the wire.** The document of an upload has the members of the report and
two of its own, and no name twice. The report, by itself and in that document, is read back as it was
exactly if all its doubles are finite, with the members in the order in which they were written and in
the order of their names. -/
theorem upload_roundtrip (i : Identity) (r : Report) : ∃ ms, ofReport r = .obj ms ∧
    Client.uploadBody i r =
      .ok (.obj (ms ++ [("agent_id", .str i.agentId), ("systemInfo", i.systemInfo)])) ∧
    (ms.map Prod.fst ++ ["agent_id", "systemInfo"]).Nodup ∧
    ∀ body, body = ofReport r ∨ Client.uploadBody i r = .ok body →
      (asReport body = some r ↔ r.IsFinite) ∧ (asReport body.canonical = some r ↔ r.IsFinite) := by
  have hnames : (reportNames ++ ["agent_id", "systemInfo"]).Nodup := by decide
  refine ⟨reportMembers r, rfl, rfl, ?_, ?_⟩
  · exact hnames.sublist ((present_names reportNames (reportSlots r)).append_right _)
  · intro body hbody
    rcases hbody with rfl | hbody
    · exact ⟨ofReport_arrange .asWritten r, ofReport_arrange .byName r⟩
    · obtain rfl := Except.ok.inj hbody
      have hread (a : Arrangement) : asReport (a.arrange (.obj (reportMembers r ++
          [("agent_id", .str i.agentId), ("systemInfo", i.systemInfo)]))) = some r ↔ r.IsFinite :=
        asReport_arrange a _ (by exact hnames) r
      exact ⟨hread .asWritten, hread .byName⟩

end DownloadTriage.Wire
