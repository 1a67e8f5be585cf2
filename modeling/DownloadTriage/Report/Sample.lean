import DownloadTriage.Report.Catalog

/-!
# Sample reports

Reports that stand in when no model answers. A sample refers to the catalog by place; which sample
and which confidence are drawn is left to the caller.
-/

namespace DownloadTriage

/-- A report to be shown, by places in the catalog. -/
structure Sample where
  verdict : Verdict
  fileType : Nat
  vendor : Nat
  packer : Nat
  signature : Nat
  imports : Nat
  strings : List Nat
  family : Option Nat
  /-- Sections with their entropies in hundredths. -/
  entropies : List (Nat × Nat)
  deriving DecidableEq, Repr

namespace Sample

/-- A number of hundredths. -/
def hundredths (n : Nat) : Binary64 := Binary64.ofRatio false n 100

/-- The samples: eight benign ones, six suspicious ones, six of malware. -/
def all : List Sample :=
  [⟨.benign, 0, 2, 0, 0, 1, [0], none, [(0, 651), (1, 212), (2, 589)]⟩,
    ⟨.benign, 0, 1, 0, 2, 0, [1, 2], none, [(0, 682), (1, 415), (2, 511)]⟩,
    ⟨.benign, 0, 2, 0, 0, 1, [3], none, [(0, 601), (1, 199), (2, 344)]⟩,
    ⟨.benign, 2, 2, 0, 0, 0, [4, 5, 6], none, [(0, 619), (1, 278)]⟩,
    ⟨.benign, 0, 0, 0, 1, 2, [], none, [(0, 670), (1, 350), (2, 490)]⟩,
    ⟨.benign, 0, 10, 0, 3, 2, [7], none, [(0, 620), (1, 210)]⟩,
    ⟨.benign, 0, 16, 0, 3, 0, [], none, [(0, 650), (1, 450), (2, 550)]⟩,
    ⟨.benign, 4, 4, 0, 3, 0, [], none, []⟩,
    ⟨.suspicious, 1, 3, 1, 4, 3, [20, 21], none, [(3, 798), (4, 795)]⟩,
    ⟨.suspicious, 1, 14, 5, 4, 5, [11, 12], none, [(0, 789), (1, 200)]⟩,
    ⟨.suspicious, 0, 8, 0, 4, 4, [13, 14, 15], none, [(0, 640), (1, 510), (5, 720)]⟩,
    ⟨.suspicious, 3, 17, 0, 3, 6, [16, 17, 18], none, []⟩,
    ⟨.suspicious, 1, 19, 2, 6, 4, [13, 14], none, [(0, 760), (1, 750)]⟩,
    ⟨.suspicious, 0, 11, 0, 3, 6, [18], none, [(0, 630), (2, 580)]⟩,
    ⟨.malware, 0, 5, 0, 4, 5, [0, 1], some 0, [(0, 695), (1, 710)]⟩,
    ⟨.malware, 1, 6, 0, 4, 7, [2, 3], some 1, [(0, 688), (1, 400)]⟩,
    ⟨.malware, 2, 7, 0, 4, 8, [4, 5, 6, 7], some 2, [(0, 701), (2, 510)]⟩,
    ⟨.malware, 0, 9, 0, 4, 6, [8, 9, 10], some 3, [(0, 675), (1, 310)]⟩,
    ⟨.malware, 1, 12, 3, 5, 9, [2, 19, 20], some 4, [(0, 750), (1, 740)]⟩,
    ⟨.malware, 0, 13, 0, 4, 10, [0, 11, 12], some 7, [(0, 680), (1, 720)]⟩]

/-- The sample of a document that is no image. -/
def document : Sample := ⟨.benign, 4, 4, 0, 3, 0, [], none, []⟩

/-- The samples from which one is drawn. -/
def choices (isPe : Bool) : List Sample := if isPe then all else [document]

/-- The confidences from which one is drawn, in hundredths. -/
def confidences : List Nat := (List.range 45).map (· + 55)

/-- The evidence of a sample. -/
def findings (s : Sample) : KeyFindings where
  fileType := Catalog.fileTypes.getD s.fileType "PE32+ (GUI) x86-64"
  packer := Catalog.packers.getD s.packer "None"
  signature := Catalog.signature s.signature
  sectionEntropy := s.entropies.map fun (place, n) =>
    ⟨Catalog.sectionNames.getD place ".text", hundredths n, none⟩
  apiImports := Catalog.importSets.getD s.imports []
  keyStrings :=
    let table := if s.verdict = .benign then Catalog.benignStrings else Catalog.suspiciousStrings
    s.strings.filterMap (table[·]?)

/-- The report of a sample under a file's name. -/
def report (s : Sample) (filename : String) (fingerprint : Fingerprint) (isPe : Bool)
    (confidence : Nat) : Report :=
  { Report.bare filename fingerprint s.verdict with
    confidence := some (hundredths confidence)
    family := s.family.bind (Catalog.families[·]?)
    vendor := some (Catalog.vendor s.vendor)
    findings := some s.findings
    isPe }

end Sample

/-- What is drawn for one sample report: its sample, its confidence, and a time stamp that goes into
the fingerprint of a file that has none. -/
structure Draw where
  sample : Nat
  confidence : Nat
  stamp : Nat
  deriving DecidableEq, Repr

namespace Draw

/-- The fingerprint to show: the file's own when it is complete, or one of its name and the time
stamp. -/
def shown (d : Draw) (filename : String) (fingerprint : Option Fingerprint) : Fingerprint :=
  match fingerprint.filter (·.isComplete) with
  | some f => f
  | none => Fingerprint.ofBytes (Utf8.bytes (filename ++ toString d.stamp))

/-- The report of a draw. A place beyond the choices counts from their start again. -/
def report (d : Draw) (filename : String) (fingerprint : Option Fingerprint) (isPe : Bool) :
    Report :=
  let choices := Sample.choices isPe
  let sample := choices.getD (d.sample % choices.length) Sample.document
  sample.report filename (d.shown filename fingerprint) isPe
    (Sample.confidences.getD (d.confidence % Sample.confidences.length) 55)

end Draw

end DownloadTriage
