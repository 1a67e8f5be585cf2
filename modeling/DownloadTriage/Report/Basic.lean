import DownloadTriage.Decimal.Shortest
import DownloadTriage.Digest.Fingerprint
import DownloadTriage.Pe.Snippet

/-!
# Scan reports

A report is the terminal record of one scan: what the file is, what it was judged to be, and the
evidence that came with the judgement.
-/

namespace DownloadTriage

/-- What a file is judged to be. -/
inductive Verdict where
  | benign
  | suspicious
  | malware
  deriving DecidableEq, Repr

namespace Verdict

/-- The verdict's name. -/
def name : Verdict → String
  | benign => "Benign"
  | suspicious => "Suspicious"
  | malware => "Malware"

/-- The verdict of a model's label, in any case and with blanks around it. An unknown label is
suspicious. -/
def ofLabel (label : String) : Verdict :=
  let l := asciiLower (trim label)
  if l = "benign" then benign
  else if l = "malware" ∨ l = "malicious" then malware
  else suspicious

end Verdict

/-- A security vendor as it is displayed. -/
structure Vendor where
  name : String
  icon : String
  deriving DecidableEq, Repr

/-- The state of a file's signature as it is displayed. -/
structure Signature where
  name : String
  icon : String
  level : String
  deriving DecidableEq, Repr

/-- The entropy of one section. -/
structure SectionEntropy where
  name : String
  entropy : Binary64
  size : Option UInt64
  deriving DecidableEq, Repr

/-- The evidence that a report displays. -/
structure KeyFindings where
  fileType : String
  packer : String
  signature : Signature
  sectionEntropy : List SectionEntropy
  apiImports : List String
  keyStrings : List String
  deriving DecidableEq, Repr

/-- How the models of an ensemble voted. -/
structure Voting where
  benign : UInt32
  malware : UInt32
  total : UInt32
  deriving DecidableEq, Repr

/-- What a model measured of an image. -/
structure ImageFeatures where
  fileSize : UInt64
  entropy : Binary64
  sections : UInt32
  libraries : UInt32
  resources : UInt32
  isPacked : Bool
  deriving DecidableEq, Repr

/-- The terminal record of one scan. -/
structure Report where
  filename : String
  fingerprint : Fingerprint
  verdict : Verdict
  confidence : Option Binary64
  family : Option String
  vendor : Option Vendor
  findings : Option KeyFindings
  votesBenign : Option UInt32
  votesMalware : Option UInt32
  voting : Option Voting
  ensembleLabel : Option Int64
  ensembleScore : Option Binary64
  ensembleClass : Option String
  ensembleClassId : Option Int64
  features : Option ImageFeatures
  graphImage : Option String
  code : Option (List CodeLine)
  codeInfo : Option CodeInfo
  isPe : Bool
  /-- The report is demonstration data, as no model answered. -/
  substituted : Bool
  error : Option String
  deriving DecidableEq, Repr

namespace Report

/-- A report of a name, a fingerprint and a verdict alone. -/
def bare (filename : String) (fingerprint : Fingerprint) (verdict : Verdict) : Report :=
  ⟨filename, fingerprint, verdict, none, none, none, none, none, none, none, none, none, none, none,
    none, none, none, none, false, false, none⟩

/-- The report of a file that is no image. -/
def notPe (filename : String) (fingerprint : Fingerprint) : Report :=
  bare filename fingerprint .benign

/-- Every double of the report is finite. -/
def IsFinite (r : Report) : Prop :=
  (∀ x ∈ r.confidence, x.isFinite) ∧ (∀ x ∈ r.ensembleScore, x.isFinite) ∧
    (∀ f ∈ r.features, f.entropy.isFinite) ∧
    ∀ k ∈ r.findings, ∀ s ∈ k.sectionEntropy, s.entropy.isFinite

end Report

end DownloadTriage
