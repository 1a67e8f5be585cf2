import DownloadTriage.Host.Environment
import DownloadTriage.Host.Log
import DownloadTriage.Json.Record
import DownloadTriage.Text.Numeral

/-!
# Settings

What the environment says of how the agent is to run. Every setting has a default.
-/

namespace DownloadTriage

/-- How the agent is to run. -/
structure Settings where
  watchDir : Option Path
  serverUrl : Option String
  serverHost : Option String
  serverPort : Nat
  lastKnownPath : Option Path
  scanDelayMs : Nat
  skipPush : Bool
  pushUrl : String
  modelDir : Path
  interpreter : String
  dashboardUrl : Option String
  dashboardKey : Option String
  heartbeatMs : Nat
  deriving DecidableEq, Repr

namespace Settings

/-- A word for yes: `1`, `true`, `yes` or `on`, in any case. -/
def isYes (s : String) : Bool := ["1", "true", "yes", "on"].contains (asciiLower s)

/-- The port on which collectors listen. -/
def defaultPort : Nat := 3000

/-- How long a scan waits before it starts. -/
def defaultScanDelayMs : Nat := 10000

/-- The time between two heartbeats. -/
def defaultHeartbeatMs : Nat := 120000

/-- The name, in the home directory, of the record of the last collector that answered. -/
def lastKnownName : String := ".maiware-server.json"

/-- The settings of an environment. -/
def ofEnvironment (e : Environment) (t : FileTree) : Settings where
  watchDir := ((e.text? "MAIWARE_WATCH_DIR").map Path.ofText).or
    (e.home?.bind (UserDirs.downloads? t))
  serverUrl := e.text? "MAIWARE_SERVER_URL"
  serverHost := e.text? "MAIWARE_SERVER_HOST"
  serverPort := ((e.text? "MAIWARE_SERVER_PORT").bind (Numeral.natural? 65535)).getD defaultPort
  lastKnownPath := e.home?.map (·.join (Path.ofText lastKnownName))
  scanDelayMs := (((e.text? "MAIWARE_SCAN_DELAY_MS").bind Numeral.whole64?).map Int.toNat).getD
    defaultScanDelayMs
  skipPush := ((e.text? "MAIWARE_SKIP_UPLOAD").map isYes).getD false
  pushUrl := (e.text? "MAIWARE_AI_APP_URL").getD "http://localhost:1234/scan"
  modelDir := Path.ofText ((e.text? "MAIWARE_AI_DIR").getD "../mAIware---AI")
  interpreter := (e.text? "MAIWARE_PYTHON").getD "python"
  dashboardUrl := e.text? "MAIWARE_DASHBOARD_URL"
  dashboardKey := e.text? "MAIWARE_DASHBOARD_API_KEY"
  heartbeatMs := defaultHeartbeatMs

/-- The URL of a collector on this host. -/
def localUrl (port : Nat) : String := "http://localhost:" ++ toString port

/-- The collector to use when none answers. -/
def fallbackUrl (s : Settings) : String := localUrl s.serverPort

/-- A path or null. -/
def pathOrNull (p : Option Path) : Json := .optStr (p.map Path.text)

/-- The settings as members of a document. -/
def members (s : Settings) : List (String × Json) :=
  [("watch_dir", pathOrNull s.watchDir), ("server_url", .optStr s.serverUrl),
    ("server_host", .optStr s.serverHost), ("server_port", .nat s.serverPort),
    ("last_known_path", pathOrNull s.lastKnownPath), ("scan_delay_ms", .nat s.scanDelayMs),
    ("skip_upload", .bool s.skipPush), ("ai_app_url", .str s.pushUrl),
    ("ai_dir", .str s.modelDir.text), ("python", .str s.interpreter),
    ("dashboard_url", .optStr s.dashboardUrl), ("dashboard_api_key", .optStr s.dashboardKey),
    ("heartbeat_interval_ms", .nat s.heartbeatMs), ("default_base_url", .str s.fallbackUrl)]

/-- What is logged of the settings. -/
def summary (s : Settings) : List LogLine :=
  let watched := (s.watchDir.map Path.text).getD "(none)"
  let lines := ["Configuration:", "  Watch dir: " ++ watched,
      "  Collector port: " ++ toString s.serverPort] ++
    (s.serverUrl.map ("  Collector URL override: " ++ ·)).toList ++
    ["  Scan delay: " ++ toString s.scanDelayMs ++ "ms",
      "  AI app push: " ++ (if s.skipPush then "disabled" else s.pushUrl),
      "  Model dir: " ++ s.modelDir.text] ++
    (s.dashboardUrl.map ("  Dashboard: " ++ ·)).toList
  lines.map LogLine.info

end Settings

end DownloadTriage
