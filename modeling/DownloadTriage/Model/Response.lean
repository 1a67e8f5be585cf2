import DownloadTriage.Json.Reader
import DownloadTriage.Json.Writer
import DownloadTriage.Model.Error
import DownloadTriage.Report.Catalog
import DownloadTriage.Report.Wire

/-!
# What a model answers

A model prints one document: a report of its own failure, or a response. From a response, the file's
name and its fingerprint comes the scan's report.
-/

namespace DownloadTriage

/-- A model's response. -/
structure Response where
  label : String
  confidence : Binary64
  fileType : Option String
  packer : Option String
  sectionEntropy : List SectionEntropy
  apiImports : List String
  keyStrings : List String
  votesBenign : Option UInt32
  votesMalware : Option UInt32
  ensembleLabel : Option Int64
  ensembleScore : Option Binary64
  ensembleClass : Option String
  ensembleClassId : Option Int64
  features : Option ImageFeatures
  graphImage : Option String
  deriving DecidableEq, Repr

namespace Response

open Json Wire

/-- The names of a response's fields. -/
def names : List String :=
  ["classification", "confidence_score", "file_type", "packer_detected", "section_entropy",
    "api_imports", "key_strings", "votes_benign", "votes_malware", "ensemble_label",
    "ensemble_score", "ensemble_class", "ensemble_class_id", "pe_features", "cfg_image"]

/-- The response of its fields. Lists may be null. -/
def ofSlots? : List (Option Json) → Option Response
  | [a, b, c, d, e, f, g, h, i, j, k, l, m, n, o] => do
    some ⟨← required asString a, ← required asFloat b, ← optional asString c, ← optional asString d,
      ← orNull [] (asList asSectionEntropy) e, ← orNull [] (asList asString) f,
      ← orNull [] (asList asString) g, ← optional asUInt32 h, ← optional asUInt32 i,
      ← optional asInt64 j, ← optional asFloat k, ← optional asString l, ← optional asInt64 m,
      ← optional asFeatures n, ← optional asString o⟩
  | _ => none

/-- The response that a value holds. -/
def ofJson? (v : Json) : Option Response := (slots? names v).bind ofSlots?

/-- The failure that a document reports: a member `error` that is not null. What is no text is
written as a document. -/
def reportedError? (v : Json) : Option String :=
  match v.member? "error" with
  | none => none
  | some .null => none
  | some (.str s) => some s
  | some w => some w.compact

/-- A reader's words for a text that is no document, and for a document that is no response. They are
its own: nothing here looks at them. -/
structure Objections where
  ofText : String → String
  ofDocument : Json → String

/-- What a printed text answers. A reported failure wins over everything beside it. -/
def read (say : Objections) (output : String) : Except ModelError Response :=
  match Json.parse? (Utf8.bytes (trim output)) with
  | none => .error (.invalidResponse (say.ofText (trim output)))
  | some v =>
    match reportedError? v with
    | some e => .error (.reported e)
    | none =>
      match ofJson? v with
      | some r => .ok r
      | none => .error (.invalidResponse (say.ofDocument v))

/-- The vendor shown for a verdict. It stands for the verdict, not for evidence in the file. -/
def vendorOf : Verdict → Vendor
  | .malware => Catalog.vendor 6
  | .benign => Catalog.vendor 2
  | .suspicious => Catalog.vendor 15

/-- The signature shown for a verdict, as little evidence as the vendor. -/
def signatureOf : Verdict → Signature
  | .malware => Catalog.signature 3
  | .benign => Catalog.signature 4
  | .suspicious => Catalog.signature 4

/-- The evidence of a response. -/
def findings (r : Response) : KeyFindings where
  fileType := r.fileType.getD "PE Executable"
  packer := r.packer.getD "Unknown"
  signature := signatureOf (Verdict.ofLabel r.label)
  sectionEntropy := r.sectionEntropy
  apiImports := r.apiImports
  keyStrings := r.keyStrings

/-- The votes, when both sides are counted. The sum wraps around, as in a release build; a debug build
panics where it does not fit. -/
def voting (r : Response) : Option Voting :=
  match r.votesBenign, r.votesMalware with
  | some b, some m => some ⟨b, m, b + m⟩
  | _, _ => none

/-- A response as the report of a file. `image` says how a reference to an image is shown. -/
def report (image : Option String → Option String) (filename : String)
    (fingerprint : Option Fingerprint) (r : Response) : Report :=
  let verdict := Verdict.ofLabel r.label
  { Report.bare filename (fingerprint.getD Fingerprint.unknown) verdict with
    confidence := some r.confidence
    vendor := some (vendorOf verdict)
    findings := some r.findings
    votesBenign := r.voting.map (·.benign)
    votesMalware := r.voting.map (·.malware)
    voting := r.voting
    ensembleLabel := r.ensembleLabel
    ensembleScore := r.ensembleScore
    ensembleClass := r.ensembleClass
    ensembleClassId := r.ensembleClassId
    features := r.features
    graphImage := image r.graphImage
    isPe := true }

end Response

end DownloadTriage
