import DownloadTriage.Agent.Startup

/-!
# The program

Reads the environment and the files that are to be scanned, and prints what a dry run of the agent
logs. Nothing is decided here.
-/

namespace DownloadTriage.Main

/-- The variables that settings and identity are read from. -/
def variableNames : List String :=
  ["HOME", "MAIWARE_WATCH_DIR", "MAIWARE_SERVER_URL", "MAIWARE_SERVER_HOST", "MAIWARE_SERVER_PORT",
    "MAIWARE_SCAN_DELAY_MS", "MAIWARE_SKIP_UPLOAD", "MAIWARE_AI_APP_URL", "MAIWARE_AI_DIR",
    "MAIWARE_PYTHON", "MAIWARE_DASHBOARD_URL", "MAIWARE_DASHBOARD_API_KEY", "MAIWARE_AGENT_ID",
    "MAIWARE_AGENT_IP"]

/-- The environment of the process. -/
def environment : IO Environment := do
  let mut entries := []
  for name in variableNames do
    if let some value ← IO.getEnv name then
      entries := entries ++ [(name, Utf8.bytes value)]
  return ⟨entries, none⟩

/-- The tree with what stands at a path; what cannot be read is left out. -/
def load (files : FileTree) (p : Path) : IO FileTree := do
  let some name := p.text? | return files
  try
    let data ← IO.FS.readBinFile name
    return files.create p (.file (.bytes data.data))
  catch _ =>
    try
      let _ ← IO.FS.realPath name
      return files.create p .directory
    catch _ => return files

/-- The sample reports that are drawn. -/
def draws (n : Nat) : IO (List Draw) :=
  (List.range n).mapM fun _ => do
    return ⟨← IO.rand 0 1000000, ← IO.rand 0 1000000, 0⟩

/-- Runs the agent with options. -/
def run (options : StartOptions) : IO Unit := do
  let environment ← environment
  let here := Path.ofText (← IO.currentDir).toString
  let files : FileTree := (⟨[], here.names⟩ : FileTree).putDirectories here.names
  let files ← (environment.home?.map UserDirs.listing).toList.foldlM load files
  let settings := Settings.ofEnvironment environment files
  let settings := { settings with watchDir := options.watchDir.or settings.watchDir }
  let files ← (settings.lastKnownPath.toList ++ settings.watchDir.toList ++
    options.scans).foldlM load files
  let drawn ← draws options.scans.length
  let identity := Identity.ofEnvironment environment "unknown-host" "127.0.0.1"
  let world := World.begin (Rehearsal.alone fun n => drawn.getD n ⟨0, 0, 0⟩) files
  let world := world.say
    [.info ("Starting mAIware agent v" ++ Invocation.versionNumber ++ "...")]
  let (service, world) := Service.ofSettings settings identity world
  for line in (service.dryRun options.scans world).story do
    IO.println line.shown

/-- Does what the arguments ask for. -/
def answer (args : List String) : IO UInt32 := do
  match Invocation.ofArguments args with
  | .error e =>
    IO.eprintln (Invocation.refusal e)
    return 2
  | .ok .help =>
    IO.println Invocation.helpText
    return 0
  | .ok .version =>
    IO.println ("maiware-agent " ++ Invocation.versionNumber)
    return 0
  | .ok (.run options) =>
    run options
    return 0

end DownloadTriage.Main

/-- The program. -/
def main (args : List String) : IO UInt32 := DownloadTriage.Main.answer args
