import DownloadTriage.Collector.Candidates
import DownloadTriage.Program.Fiber

/-!
# Locating a collector

Resolvers offer candidates; the first candidate in good health is used from then on, until it is
given up, and recorded for the next start. When no candidate answers, the fallback is used and
nothing is recorded.
-/

namespace DownloadTriage

/-- The URL without one slash at its end. -/
def stripSlash (url : String) : String :=
  if url.endsWith "/" then String.ofList url.toList.dropLast else url

/-- Where candidates come from. -/
inductive Resolver where
  /-- The record of the last collector that answered. -/
  | lastKnown
  /-- A question to the network. A round with servers is kept in the slot for that long. -/
  | broadcast (slot ttlMs : Nat)
  /-- Where the settings say, and the usual addresses. -/
  | sweep (w : Whereabouts)
  /-- A list that may change over time. -/
  | listed (name : String) (list : Nat → List String)

/-- How a collector is located. -/
structure Locator where
  record : Option Path
  resolvers : List Resolver
  fallback : String

namespace Resolver

open Program

/-- How long a round is kept unless told otherwise. -/
def defaultTtlMs : Nat := 30000

/-- The name of a resolver in the log. -/
def name : Resolver → String
  | lastKnown => "last known"
  | broadcast _ _ => "broadcast"
  | sweep _ => "candidate sweep"
  | listed name _ => name

/-- The whole seconds of a time. -/
def seconds (ms : Nat) : String := toString (ms / 1000) ++ "s"

/-- The servers that a kept round still offers. -/
def KeptRound.offers (round : KeptRound) (now : Nat) : Option (List String) :=
  if round.servers = [] ∨ round.expires ≤ now then none else some round.servers

/-- A new round of discovery, kept if it found servers. -/
def newRound (slot ttlMs : Nat) : Program (List String) := do
  log (.info "[Server] Broadcasting for mAIware servers on LAN...")
  let servers ← request .discover
  if servers = [] then
    log (.info "[Broadcast] No servers found via broadcast")
  else
    log (.info ("[Broadcast] Discovered " ++ toString servers.length ++
      " server(s), caching for " ++ seconds ttlMs))
    let now ← request .now
    request (.keepRound slot ⟨servers, now + ttlMs⟩)
  pure servers

/-- The servers of the kept round, or of a new one. -/
def ask (slot ttlMs : Nat) : Program (List String) := do
  match ← request (.keptRound slot) with
  | none => newRound slot ttlMs
  | some round =>
    let now ← request .now
    match KeptRound.offers round now with
    | none => newRound slot ttlMs
    | some servers =>
      log (.info ("[Broadcast] Using cached discovery: " ++ toString servers.length ++
        " server(s) (" ++ seconds (round.expires - now) ++ " remaining)"))
      pure servers

/-- The candidates of a resolver. -/
def candidates (record : Option Path) : Resolver → Program (List String)
  | lastKnown => do
    let files ← request .files
    pure (LastKnown.load files record).toList
  | broadcast slot ttlMs => ask slot ttlMs
  | sweep w => do
    log (.info ("[Server] Probing " ++ toString w.candidates.length ++ " candidate endpoints..."))
    pure w.candidates
  | listed _ list => do
    let now ← request .now
    pure (list now)

end Resolver

namespace Locator

open Program

/-- Use a candidate that answered. -/
def adopt (l : Locator) (via candidate : String) : Program String := do
  let url := stripSlash candidate
  log (.info ("[Server] Selected endpoint " ++ url ++ " (via " ++ via ++ ")"))
  request (.use (some url))
  request (.record l.record url)
  pure url

/-- The first candidate in good health. -/
def firstHealthy : List String → Program (Option String)
  | [] => pure none
  | c :: cs => do
    if ← request (.probe c) then pure (some c) else firstHealthy cs

/-- Try resolvers one after the other, and use the fallback in the end. -/
def search (l : Locator) : List Resolver → Program String
  | [] => do
    log (.warn ("[Server] No collector answered, falling back to " ++ l.fallback))
    request (.use (some l.fallback))
    pure l.fallback
  | r :: rs => do
    match ← firstHealthy (← r.candidates l.record) with
    | some c => l.adopt r.name c
    | none => l.search rs

/-- The collector in use, or the one to use from now on. -/
def resolve (l : Locator) : Program String := do
  match ← request .endpoint with
  | some url => pure url
  | none => l.search l.resolvers

/-- Give up the collector in use. -/
def invalidate : Program Unit := request (.use none)

/-- Where a collector is asked for its health. -/
def healthUrl (base : String) : String := stripSlash base ++ "/api/health"

/-- How long a probe may take. -/
def probeTimeoutMs : Nat := 2000

/-- A probe by HTTP. -/
def probeBy (x : Exchange) (base : String) : Bool :=
  match x.send ⟨healthUrl base, none, .none, probeTimeoutMs⟩ with
  | .ok r => isSuccess r.status
  | .error _ => false

/-- The locator of settings and identity: the record, then the network, then the usual
addresses. -/
def ofSettings (s : Settings) (i : Identity) : Locator :=
  ⟨s.lastKnownPath,
    [.lastKnown, .broadcast 0 Resolver.defaultTtlMs, .sweep (Whereabouts.ofSettings s i)],
    s.fallbackUrl⟩

end Locator

end DownloadTriage
