import DownloadTriage.Host.Identity
import DownloadTriage.Host.Settings

/-!
# Candidates by configuration

Where a collector may be found without asking anyone: where the settings say, on this host, and at
the usual addresses of the agent's network.
-/

namespace DownloadTriage

/-- What is known of where a collector may be. -/
structure Whereabouts where
  serverUrl : Option String
  serverHost : Option String
  port : Nat
  hostname : Option String
  address : Option Address
  deriving DecidableEq, Repr

namespace Whereabouts

/-- The host on which a container runs. -/
def containerHost : String := "http://host.docker.internal:3000"

/-- The last numbers of addresses that gateways often have. -/
def gatewayNumbers : List String := ["1", "10", "20", "50", "100", "254"]

/-- The URL of a host at a port. -/
def urlOf (port : Nat) (host : String) : String := "http://" ++ host ++ ":" ++ toString port

/-- The usual addresses of gateways on a network. -/
def gateways (port : Nat) (a : Address) : List String :=
  gatewayNumbers.map fun n => urlOf port (a.network ++ n)

/-- The list without empty texts, every text where it comes first. -/
def unique (ss : List String) : List String := (ss.filter (· ≠ "")).eraseDups

/-- The candidates in the order in which they are tried. -/
def candidates (w : Whereabouts) : List String :=
  unique (w.serverUrl.toList ++ (w.serverHost.map (urlOf w.port)).toList ++
    [urlOf w.port "localhost", urlOf w.port "127.0.0.1"] ++
    (w.hostname.map (urlOf w.port)).toList ++ [containerHost] ++
    (w.address.map (gateways w.port)).getD [])

/-- What settings and identity say. -/
def ofSettings (s : Settings) (i : Identity) : Whereabouts :=
  ⟨s.serverUrl, s.serverHost, s.serverPort, some i.hostname, i.address?⟩

end Whereabouts

end DownloadTriage
