import DownloadTriage.Program.Fiber

/-!
# Judging a file

A model judges the file. When it cannot, something stands in for it, and the report says so: it is
marked as substituted and carries the model's failure.
-/

namespace DownloadTriage

/-- What stands in for a model that fails: sample reports, or another model. -/
inductive StandIn where
  | samples
  | other (name : String)
  deriving DecidableEq, Repr

/-- The name of what stands in. -/
def StandIn.name : StandIn → String
  | samples => "demo"
  | other name => name

/-- What the model said of a file. -/
inductive Consultation where
  | classified (r : Report)
  /-- The model failed; a verdict and a confidence in its place. -/
  | unanswered (verdict : Verdict) (confidence : Binary64) (error : String)
  deriving DecidableEq, Repr

namespace Judgement

open Program

/-- The confidence in place of a model that failed. -/
def halfConfidence : Binary64 := Binary64.ofRatio false 1 2

/-- What a model's answer says of a file. -/
def consultation : Except ModelError Report → Consultation
  | .ok r => .classified r
  | .error e => .unanswered .suspicious halfConfidence e.message

/-- Ask the model about a file. -/
def consult (p : Path) (fingerprint : Option Fingerprint) : Program Consultation := do
  pure (consultation (← request (.consult p fingerprint)))

/-- A confidence as it is logged. -/
def confidenceText : Option Binary64 → String
  | none => "None"
  | some x => "Some(" ++ x.text .logLine ++ ")"

/-- A sample report for a file. -/
def sample (p : Path) (fingerprint : Option Fingerprint) : Program Report := do
  let d ← request .draw
  pure (d.report p.fileName fingerprint true)

/-- The report that stands in. A sample stands in where the stand-in fails too. -/
def substitute (standIn : StandIn) (p : Path) (fingerprint : Option Fingerprint) :
    Program Report :=
  match standIn with
  | .samples => sample p fingerprint
  | .other _ => do
    match ← request (.standIn p fingerprint) with
    | .ok r => pure r
    | .error e =>
      log (.error ("[AI] Fallback classifier failed: " ++ e.message))
      sample p fingerprint

/-- The judgement of an image: always a report. -/
def judge (standIn : StandIn) (p : Path) (fingerprint : Option Fingerprint) :
    Program Report := do
  match ← consult p fingerprint with
  | .classified r =>
    log (.info ("[AI] Classification: " ++ r.verdict.name ++ " (" ++
      confidenceText r.confidence ++ ")"))
    pure { r with isPe := true }
  | .unanswered _ _ error =>
    log (.warn ("[AI] AI failed (" ++ error ++ "), using " ++ standIn.name ++ " data"))
    let r ← substitute standIn p fingerprint
    pure { r with substituted := true, error := some error, isPe := true }

end Judgement

end DownloadTriage
