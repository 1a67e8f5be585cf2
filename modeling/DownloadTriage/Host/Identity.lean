import DownloadTriage.Host.Address
import DownloadTriage.Host.Environment
import DownloadTriage.Json.Record

/-!
# The agent's identity

Who the agent is to a collector. The environment may override what the host says.
-/

namespace DownloadTriage

/-- Who the agent is. -/
structure Identity where
  agentId : String
  hostname : String
  ip : String
  deriving DecidableEq, Repr

namespace Identity

/-- The identity that the environment asks for, if any. -/
def idOverride (e : Environment) : Option String := e.text? "MAIWARE_AGENT_ID"

/-- The address that the environment asks for, if any. -/
def ipOverride (e : Environment) : Option String := e.text? "MAIWARE_AGENT_IP"

/-- The identity on a host with that name and address. -/
def ofEnvironment (e : Environment) (hostname ip : String) : Identity where
  agentId := (idOverride e).getD hostname
  hostname := hostname
  ip := (ipOverride e).getD ip

/-- The agent's IPv4 address, if its address is one. -/
def address? (i : Identity) : Option Address := Address.ofText? i.ip

/-- What a collector is told of the host. -/
def systemInfo (i : Identity) : Json :=
  .obj [("hostname", .str i.hostname), ("ip", .str i.ip)]

end Identity

end DownloadTriage
