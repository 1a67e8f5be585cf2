import DownloadTriage.Collector.Heartbeat
import DownloadTriage.Proofs.Dialogue
import DownloadTriage.Scan.Pipeline

/-!
# Who asks for what

The collector's programs look for a collector and post to it; they tell the listeners nothing, hand
over no report and ask no model. To ask a resolver touches neither the collector in use nor its record,
and to look for a collector never gives one up. An upload posts one document. A push exchanges by HTTP
and nothing else. The parts of a scan that read the file only read it, and before its report a scan
posts nothing.
-/

namespace DownloadTriage

namespace Request

/-- A request of those who use the collector. -/
def collects : Request → Bool
  | .log _ | .now | .sleep _ | .endpoint | .use _ | .files | .record _ _ | .keptRound _
  | .keepRound _ _ | .discover | .probe _ | .post _ => true
  | _ => false

/-- A request of those who look for a collector. -/
def locates : Request → Bool
  | .log _ | .now | .endpoint | .use (some _) | .files | .record _ _ | .keptRound _
  | .keepRound _ _ | .discover | .probe _ => true
  | _ => false

/-- A request of a resolver that is asked for candidates. -/
def queries : Request → Bool
  | .log _ | .now | .files | .keptRound _ | .keepRound _ _ | .discover => true
  | _ => false

/-- A request of a push. -/
def pushes : Request → Bool
  | .log _ | .files | .exchange _ => true
  | _ => false

/-- A request that reads files, or waits, or has their code decoded. -/
def reads : Request → Bool
  | .log _ | .sleep _ | .files | .decode _ => true
  | _ => false

/-- A request of a scan before its report is told. -/
def examines : Request → Bool
  | .log _ | .sleep _ | .files | .emit _ | .consult _ _ | .standIn _ _ | .draw | .decode _ => true
  | _ => false

/-- A request to post a document. -/
def posts : Request → Bool
  | .post _ => true
  | _ => false

/-- A question to the model. -/
def consults : Request → Bool
  | .consult _ _ => true
  | _ => false

theorem locates_of_queries {r : Request} (h : r.queries = true) : r.locates = true := by
  cases r <;> first | rfl | cases h

theorem collects_of_locates {r : Request} (h : r.locates = true) : r.collects = true := by
  cases r <;> first | rfl | cases h

theorem not_posts_of_locates {r : Request} (h : r.locates = true) : r.posts = false := by
  cases r <;> first | rfl | cases h

theorem not_posts_of_examines {r : Request} (h : r.examines = true) : r.posts = false := by
  cases r <;> first | rfl | cases h

theorem examines_of_reads {r : Request} (h : r.reads = true) : r.examines = true := by
  cases r <;> first | rfl | cases h

theorem not_consults_of_collects {r : Request} (h : r.collects = true) : r.consults = false := by
  cases r <;> first | rfl | cases h

theorem not_consults_of_reads {r : Request} (h : r.reads = true) : r.consults = false := by
  cases r <;> first | rfl | cases h

end Request

open Program

/-! ## The collector -/

namespace Resolver

theorem newRound_only (slot ttlMs : Nat) : (newRound slot ttlMs).Only (·.queries) := by
  unfold newRound
  refine .bind (only_log rfl) fun _ => .bind (only_request rfl) fun servers => ?_
  split
  · exact .bind (only_log rfl) fun _ => only_pure _
  · exact .bind (only_log rfl) fun _ => .bind (only_request rfl) fun _ =>
      .bind (only_request rfl) fun _ => only_pure _

theorem ask_only (slot ttlMs : Nat) : (ask slot ttlMs).Only (·.queries) := by
  unfold ask
  refine .bind (only_request rfl) fun round => ?_
  split
  · exact newRound_only slot ttlMs
  · refine .bind (only_request rfl) fun now => ?_
    split
    · exact newRound_only slot ttlMs
    · exact .bind (only_log rfl) fun _ => only_pure _

theorem candidates_only (record : Option Path) (r : Resolver) :
    (r.candidates record).Only (·.queries) := by
  cases r with
  | lastKnown => exact .bind (only_request rfl) fun _ => only_pure _
  | broadcast slot ttlMs => exact ask_only slot ttlMs
  | sweep w => exact .bind (only_log rfl) fun _ => only_pure _
  | listed name list => exact .bind (only_request rfl) fun _ => only_pure _

end Resolver

namespace Locator

theorem firstHealthy_only (cs : List String) : (firstHealthy cs).Only (·.locates) := by
  induction cs with
  | nil => exact only_pure _
  | cons c cs ih =>
    refine .bind (only_request rfl) fun ok => ?_
    split
    · exact only_pure _
    · exact ih

theorem adopt_only (l : Locator) (via candidate : String) :
    (l.adopt via candidate).Only (·.locates) :=
  .bind (only_log rfl) fun _ => .bind (only_request rfl) fun _ => .bind (only_request rfl) fun _ =>
    only_pure _

theorem search_only (l : Locator) (rs : List Resolver) : (l.search rs).Only (·.locates) := by
  induction rs with
  | nil => exact .bind (only_log rfl) fun _ => .bind (only_request rfl) fun _ => only_pure _
  | cons r rs ih =>
    refine .bind ((r.candidates_only l.record).mono fun _ => Request.locates_of_queries) fun cs =>
      .bind (firstHealthy_only cs) fun found => ?_
    split
    · exact adopt_only l _ _
    · exact ih

theorem resolve_only (l : Locator) : l.resolve.Only (·.locates) := by
  refine .bind (only_request rfl) fun url => ?_
  split
  · exact only_pure _
  · exact search_only l _

theorem resolve_collects (l : Locator) : l.resolve.Only (·.collects) :=
  l.resolve_only.mono fun _ => Request.collects_of_locates

end Locator

namespace Client

theorem attempt_only (c : Client) (body : Json) (number : Nat) :
    (c.attempt body number).Only (·.collects) :=
  .bind c.locator.resolve_collects fun _ => .bind (only_log rfl) fun _ =>
    .bind (only_request rfl) fun _ => .bind (only_log rfl) fun _ => only_pure _

theorem upload_only (c : Client) (body : Json) (left : Nat) :
    (c.upload body left).Only (·.collects) := by
  -- one attempt, and then the ones that are left
  induction left with
  | zero => exact .bind (only_log rfl) fun _ => only_pure _
  | succ left ih =>
    refine .bind (c.attempt_only body _) fun reply => ?_
    split
    · exact only_pure _
    · refine Only.bind (only_request rfl) fun _ => ?_
      split
      · exact .bind (only_log rfl) fun _ => .bind (only_request rfl) fun _ => ih
      · exact ih

theorem heartbeat_only (c : Client) (reason : String) : (c.heartbeat reason).Only (·.collects) :=
  .bind c.locator.resolve_collects fun _ => .bind (only_request rfl) fun _ =>
    .bind (only_log rfl) fun _ => only_pure _

/-- An upload posts its document and no other. -/
theorem upload_posts (c : Client) (body : Json) (left : Nat) :
    (c.upload body left).Only fun r => ∀ p, r = .post p → p.body = body := by
  have hresolve : c.locator.resolve.Only fun r => ∀ p, r = .post p → p.body = body :=
    c.locator.resolve_only.mono fun r h p hp => by
      rw [hp] at h
      cases h
  induction left with
  | zero => exact .bind (only_log nofun) fun _ => only_pure _
  | succ left ih =>
    refine .bind (.bind hresolve fun _ => .bind (only_log nofun) fun _ => .bind
      (only_request fun p hp => ?_) fun _ => .bind (only_log nofun) fun _ => only_pure _)
      fun reply => ?_
    · obtain rfl := Request.post.inj hp
      rfl
    · split
      · exact only_pure _
      · refine Only.bind (only_request nofun) fun _ => ?_
        split
        · exact .bind (only_log nofun) fun _ => .bind (only_request nofun) fun _ => ih
        · exact ih

end Client

/-! ## Push and scan -/

namespace PushTarget

theorem fail_only (reason : String) : (fail reason).Only (·.pushes) :=
  .bind (only_log rfl) fun _ => only_pure _

theorem conclude_only (answer : Except HttpError HttpResponse) :
    (conclude answer).Only (·.pushes) := by
  unfold conclude
  split
  · exact fail_only _
  · split
    · exact .bind (only_log rfl) fun _ => only_pure _
    · exact fail_only _

theorem push_only (target : PushTarget) (p : Path) (filename : String) :
    (target.push p filename).Only (·.pushes) := by
  unfold push
  split
  · refine .bind (only_log rfl) fun _ => .bind (only_request rfl) fun files => ?_
    split
    · exact fail_only _
    · exact .bind (only_request rfl) fun answer => conclude_only answer
  · exact .bind (only_log rfl) fun _ => only_pure _

end PushTarget

namespace Pipeline

theorem refuse_only (e : Pe.SnippetError) : (code.refuse e).Only (·.reads) :=
  .bind (only_log rfl) fun _ => only_pure _

theorem code_only (p : Path) : (code p).Only (·.reads) := by
  unfold code
  refine .bind (only_request rfl) fun files => ?_
  split
  · exact .bind (only_log rfl) fun _ => only_pure _
  · split
    · exact refuse_only _
    · refine .bind (only_request rfl) fun answer => ?_
      split
      · exact refuse_only _
      · exact only_pure _

theorem delay_only (l : Pipeline) : l.delay.Only (·.reads) := by
  unfold delay
  split
  · exact only_pure _
  · exact only_request rfl

theorem fingerprint_only (p : Path) : (fingerprint p).Only (·.reads) := by
  unfold fingerprint
  refine .bind (only_request rfl) fun files => ?_
  split
  · exact only_pure _
  · exact .bind (only_log rfl) fun _ => only_pure _

theorem probe_only (p : Path) : (probe p).Only (·.reads) := by
  unfold probe
  refine .bind (only_request rfl) fun files => ?_
  split
  · exact only_pure _
  · exact .bind (only_log rfl) fun _ => only_pure _

theorem announce_only (filename : String) (c : Option Pe.Snippet) :
    (announce filename c).Only (·.examines) := by
  cases c with
  | none => exact only_pure _
  | some c => exact only_request rfl

end Pipeline

namespace Judgement

theorem substitute_only (standIn : StandIn) (p : Path) (fp : Option Fingerprint) :
    (substitute standIn p fp).Only (·.examines) := by
  have hsample : (sample p fp).Only (·.examines) := .bind (only_request rfl) fun _ => only_pure _
  cases standIn with
  | samples => exact hsample
  | other name =>
    refine .bind (only_request rfl) fun answer => ?_
    split
    · exact only_pure _
    · exact .bind (only_log rfl) fun _ => hsample

theorem judge_only (standIn : StandIn) (p : Path) (fp : Option Fingerprint) :
    (judge standIn p fp).Only (·.examines) := by
  unfold judge consult
  refine .bind (.bind (only_request rfl) fun _ => only_pure _) fun answer => ?_
  split
  · exact .bind (only_log rfl) fun _ => only_pure _
  · exact .bind (only_log rfl) fun _ => .bind (substitute_only standIn p fp) fun _ => only_pure _

end Judgement

namespace Pipeline

theorem scanImage_only (l : Pipeline) (task : ScanTask) (fp : Option Fingerprint) :
    (l.scanImage task fp).Only (·.examines) :=
  .bind ((code_only _).mono fun _ => Request.examines_of_reads) fun _ =>
    .bind (announce_only _ _) fun _ => .bind (only_log rfl) fun _ =>
      .bind (Judgement.judge_only _ _ _) fun _ => .bind (only_log rfl) fun _ => only_pure _

theorem examine_only (l : Pipeline) (task : ScanTask) : (l.examine task).Only (·.examines) := by
  unfold examine
  refine .bind (only_log rfl) fun _ => .bind (l.delay_only.mono fun _ => Request.examines_of_reads)
    fun _ => .bind ((fingerprint_only _).mono fun _ => Request.examines_of_reads) fun fp =>
      .bind ((probe_only _).mono fun _ => Request.examines_of_reads) fun isPe =>
        .bind (only_log rfl) fun _ => ?_
  split
  · exact .bind (l.scanImage_only task fp) fun _ => .bind (only_log rfl) fun _ => only_pure _
  · exact .bind (only_pure _) fun _ => .bind (only_log rfl) fun _ => only_pure _

end Pipeline

end DownloadTriage
