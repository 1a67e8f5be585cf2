import DownloadTriage.Agent.Service
import DownloadTriage.Decimal.Fixed
import DownloadTriage.Host.CommandLine
import DownloadTriage.Machine.X86
import DownloadTriage.Program.Rehearsal

/-!
# Starting the agent

The whole agent from settings and identity, and a dry run of it: it scans files where no model
answers and nobody can be reached, and then shuts down.
-/

namespace DownloadTriage

/-- The line with which an event is logged. -/
def Event.line : Event → LogLine
  | ready dir => .info ("[Agent] Ready, watching " ++ dir.text)
  | scanStarted name _ manual =>
    .info ("[Agent] Scan started: " ++ name ++ if manual then " (manual)" else "")
  | code name lines info =>
    .info ("[Agent] " ++ name ++ " entry point: " ++ toString lines.length ++
      " instructions (" ++ info.arch ++ ")")
  | report r =>
    .info ("[Agent] " ++ r.filename ++ " => " ++ r.verdict.name ++
      ((r.confidence.map fun x => " (" ++ x.fixed 2 ++ ")").getD ""))
  | shutdown => .info "[Agent] Shutdown complete"

/-- The log together with the lines of the events, in order. -/
def World.story (w : World) : List LogLine :=
  w.trace.filterMap fun
    | (_, .logged l) => some l
    | (_, .emitted e) => some e.line
    | _ => none

/-- The line that names the agent. -/
def Identity.line (i : Identity) : LogLine :=
  .info ("[Identity] agent=" ++ i.agentId ++ " host=" ++ i.hostname ++ " ip=" ++ i.ip)

namespace Service

/-- The watcher that settings ask for, if it can be started. -/
def watcherOf (s : Settings) (w : World) : Option Watcher × World :=
  match s.watchDir with
  | none => (none, w.say [.warn "[Monitor] No watch directory found - manual scans only"])
  | some dir =>
    match Watcher.start dir Stability.usual w with
    | .ok (x, w) => (some x, w)
    | .error e => (none, w.say [.error ("[Monitor] " ++ e.message ++ " - manual scans only")])

/-- The agent of settings and identity, ready to run. -/
def ofSettings (s : Settings) (i : Identity) (w : World) : Service × World :=
  let client : Client := ⟨i, Locator.ofSettings s i⟩
  let pipeline : Pipeline := ⟨client, .samples, ⟨s.pushUrl, !s.skipPush⟩, s.scanDelayMs⟩
  let (watcher, w) := watcherOf s (w.say (s.summary ++ [i.line]))
  let ready := LogLine.info ("[Monitor] Agent bootstrapped. Upload " ++
    (if s.skipPush then "disabled" else "enabled") ++ ", scan delay " ++
    toString s.scanDelayMs ++ "ms.")
  (begin ⟨pipeline, Agent.defaultShutdownWaitMs⟩ (some (Heartbeat.begin client s.heartbeatMs))
    watcher, w.say [ready])

/-- Longer than the attempts of one upload take. -/
def uploadAllowanceMs : Nat := 5000

/-- The world after the agent scanned files and was shut down. -/
def dryRun (service : Service) (scans : List Path) (w : World) : World :=
  let told := scans.foldl (fun s p => (s.send (.scan p)).getD s) service
  let perScan := service.setup.pipeline.delayMs + uploadAllowanceMs
  let r := machine.advance w.clock (w.clock + perScan * scans.length) told w
  let w := r.2.say [.info "Shutdown signal received, draining..."]
  let asked := (r.1.send (.shutdown 0)).getD r.1
  (machine.advance w.clock (w.clock + service.setup.shutdownWaitMs + uploadAllowanceMs) asked w).2

end Service

/-- Surroundings in which no model answers and nobody can be reached. -/
def Rehearsal.alone (draws : Nat → Draw) : Surroundings :=
  let failing : Rehearsal.Model := fun _ => (.failure (.unavailable "dry run"), 0)
  { Rehearsal.surroundings failing failing X86.decoder with
    replies := fun _ => .error (.network "dry run")
    draws := draws }

end DownloadTriage
