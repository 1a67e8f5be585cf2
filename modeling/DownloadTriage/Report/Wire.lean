import DownloadTriage.Json.Record
import DownloadTriage.Report.Basic

/-!
# Reports on the wire

The records of a report as JSON and back. Every record lists its names once; `…Slots` writes its
fields in that order and `…OfSlots?` reads them.
-/

namespace DownloadTriage.Wire

open Json

/-! ## Words and doubles -/

/-- A 32-bit natural number. -/
def asUInt32 (v : Json) : Option UInt32 := (asNatBelow UInt32.size v).map UInt32.ofNat

/-- A 64-bit natural number. -/
def asUInt64 (v : Json) : Option UInt64 := (asNatBelow UInt64.size v).map UInt64.ofNat

/-- A 64-bit integer. -/
def asInt64 (v : Json) : Option Int64 :=
  (asInteger Int64.minValue.toInt Int64.maxValue.toInt v).map Int64.ofInt

/-- A 64-bit integer. -/
def ofInt64 (i : Int64) : Json := num (.integer i.toInt)

/-- A list that is written only when it has items. -/
def unlessEmpty {α : Type} (write : α → Json) (vs : List α) : Option Json :=
  if vs.isEmpty then none else some (arr (vs.map write))

/-! ## Records -/

/-- A verdict by its name, or as an object with that name and null. -/
def asVerdict : Json → Option Verdict
  | str s => named s
  | obj [(s, null)] => named s
  | _ => none
where
  /-- The verdict of that very name. -/
  named (s : String) : Option Verdict :=
    if s = "Benign" then some .benign
    else if s = "Suspicious" then some .suspicious
    else if s = "Malware" then some .malware
    else none

/-- A verdict. -/
def ofVerdict (v : Verdict) : Json := str v.name

/-- The names of a fingerprint's fields. -/
def fingerprintNames : List String := ["sha256", "md5"]

/-- A fingerprint. -/
def ofFingerprint (f : Fingerprint) : Json :=
  assemble fingerprintNames [some (str f.sha256), some (str f.md5)]

/-- A fingerprint. -/
def asFingerprint (v : Json) : Option Fingerprint := do
  match ← slots? fingerprintNames v with
  | [a, b] => some ⟨← required asString a, ← required asString b⟩
  | _ => none

/-- The names of a vendor's fields. -/
def vendorNames : List String := ["name", "icon"]

/-- A vendor. -/
def ofVendor (x : Vendor) : Json := assemble vendorNames [some (str x.name), some (str x.icon)]

/-- A vendor. -/
def asVendor (v : Json) : Option Vendor := do
  match ← slots? vendorNames v with
  | [a, b] => some ⟨← required asString a, ← required asString b⟩
  | _ => none

/-- The names of a signature's fields. -/
def signatureNames : List String := ["name", "icon", "level"]

/-- A signature. -/
def ofSignature (x : Signature) : Json :=
  assemble signatureNames [some (str x.name), some (str x.icon), some (str x.level)]

/-- A signature. -/
def asSignature (v : Json) : Option Signature := do
  match ← slots? signatureNames v with
  | [a, b, c] => some ⟨← required asString a, ← required asString b, ← required asString c⟩
  | _ => none

/-- The names of a section entropy's fields. -/
def sectionEntropyNames : List String := ["name", "entropy", "size"]

/-- The entropy of a section. -/
def ofSectionEntropy (x : SectionEntropy) : Json :=
  assemble sectionEntropyNames
    [some (str x.name), some (float x.entropy), x.size.map fun n => nat n.toNat]

/-- The entropy of a section. -/
def asSectionEntropy (v : Json) : Option SectionEntropy := do
  match ← slots? sectionEntropyNames v with
  | [a, b, c] =>
    some ⟨← required asString a, ← required asFloat b, ← optional asUInt64 c⟩
  | _ => none

/-- The names of the findings' fields. -/
def findingsNames : List String :=
  ["file_type", "packer_detected", "signature", "section_entropy", "api_imports", "key_strings"]

/-- Findings. -/
def ofFindings (k : KeyFindings) : Json :=
  assemble findingsNames
    [some (str k.fileType), some (str k.packer), some (ofSignature k.signature),
      some (arr (k.sectionEntropy.map ofSectionEntropy)), unlessEmpty str k.apiImports,
      unlessEmpty str k.keyStrings]

/-- Findings. -/
def asFindings (v : Json) : Option KeyFindings := do
  match ← slots? findingsNames v with
  | [a, b, c, d, e, f] =>
    some ⟨← required asString a, ← required asString b, ← required asSignature c,
      ← orElse [] (asList asSectionEntropy) d, ← orElse [] (asList asString) e,
      ← orElse [] (asList asString) f⟩
  | _ => none

/-- The names of a voting's fields. -/
def votingNames : List String := ["benign", "malware", "total_models"]

/-- A voting. -/
def ofVoting (x : Voting) : Json :=
  assemble votingNames
    [some (nat x.benign.toNat), some (nat x.malware.toNat), some (nat x.total.toNat)]

/-- A voting. -/
def asVoting (v : Json) : Option Voting := do
  match ← slots? votingNames v with
  | [a, b, c] => some ⟨← required asUInt32 a, ← required asUInt32 b, ← required asUInt32 c⟩
  | _ => none

/-- The names of the image features. -/
def featuresNames : List String :=
  ["file_size", "entropy_total", "number_of_sections", "total_dlls", "total_resources",
    "is_packed"]

/-- Image features. -/
def ofFeatures (x : ImageFeatures) : Json :=
  assemble featuresNames
    [some (nat x.fileSize.toNat), some (float x.entropy), some (nat x.sections.toNat),
      some (nat x.libraries.toNat), some (nat x.resources.toNat), some (bool x.isPacked)]

/-- Image features; what is missing or null is zero. -/
def asFeatures (v : Json) : Option ImageFeatures := do
  match ← slots? featuresNames v with
  | [a, b, c, d, e, f] =>
    some ⟨← orNull 0 asUInt64 a, ← orNull 0 asFloat b, ← orNull 0 asUInt32 c,
      ← orNull 0 asUInt32 d, ← orNull 0 asUInt32 e, ← orNull false asBool f⟩
  | _ => none

/-- The names of a line of code. -/
def codeLineNames : List String := ["address", "mnemonic", "op_str"]

/-- A line of code. -/
def ofCodeLine (x : CodeLine) : Json :=
  assemble codeLineNames [some (str x.address), some (str x.mnemonic), some (str x.operands)]

/-- A line of code. -/
def asCodeLine (v : Json) : Option CodeLine := do
  match ← slots? codeLineNames v with
  | [a, b, c] => some ⟨← required asString a, ← required asString b, ← required asString c⟩
  | _ => none

/-- The names of what is known of shown code. -/
def codeInfoNames : List String := ["arch", "entryRva", "is64"]

/-- What is known of shown code. -/
def ofCodeInfo (x : CodeInfo) : Json :=
  assemble codeInfoNames
    [some (str x.arch), some (nat x.entryRva.toNat), x.is64.map bool]

/-- What is known of shown code. -/
def asCodeInfo (v : Json) : Option CodeInfo := do
  match ← slots? codeInfoNames v with
  | [a, b, c] => some ⟨← required asString a, ← required asUInt32 b, ← optional asBool c⟩
  | _ => none

/-! ## Reports -/

/-- The names of a report's fields. -/
def reportNames : List String :=
  ["detected_filename", "file_hashes", "classification", "confidence_score", "malware_family",
    "vendor", "key_findings", "votes_benign", "votes_malware", "ai_voting", "ensemble_label",
    "ensemble_score", "ensemble_class", "ensemble_class_id", "pe_metadata", "cfg_image",
    "disassembly", "disassembly_meta", "is_pe", "fallback", "error"]

/-- The fields of a report; what is absent is not written, nor is the mark of substituted data on a
report without it. -/
def reportSlots (r : Report) : List (Option Json) :=
  [some (str r.filename), some (ofFingerprint r.fingerprint), some (ofVerdict r.verdict),
    r.confidence.map float, r.family.map str, r.vendor.map ofVendor, r.findings.map ofFindings,
    r.votesBenign.map fun n => nat n.toNat, r.votesMalware.map fun n => nat n.toNat,
    r.voting.map ofVoting, r.ensembleLabel.map ofInt64, r.ensembleScore.map float,
    r.ensembleClass.map str, r.ensembleClassId.map ofInt64, r.features.map ofFeatures,
    r.graphImage.map str, r.code.map fun ls => arr (ls.map ofCodeLine),
    r.codeInfo.map ofCodeInfo, some (bool r.isPe), if r.substituted then some (bool true) else none,
    r.error.map str]

/-- The members of a report. -/
def reportMembers (r : Report) : List (String × Json) := present reportNames (reportSlots r)

/-- A report. -/
def ofReport (r : Report) : Json := obj (reportMembers r)

/-- The report of its fields. -/
def reportOfSlots? : List (Option Json) → Option Report
  | [a, b, c, d, e, f, g, h, i, j, k, l, m, n, o, p, q, r, s, t, u] => do
    some ⟨← required asString a, ← required asFingerprint b, ← required asVerdict c,
      ← optional asFloat d, ← optional asString e, ← optional asVendor f, ← optional asFindings g,
      ← optional asUInt32 h, ← optional asUInt32 i, ← optional asVoting j, ← optional asInt64 k,
      ← optional asFloat l, ← optional asString m, ← optional asInt64 n, ← optional asFeatures o,
      ← optional asString p, ← optional (asList asCodeLine) q, ← optional asCodeInfo r,
      ← required asBool s, ← orElse false asBool t, ← optional asString u⟩
  | _ => none

/-- A report. -/
def asReport (v : Json) : Option Report := (slots? reportNames v).bind reportOfSlots?

end DownloadTriage.Wire
