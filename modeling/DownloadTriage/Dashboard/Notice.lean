import DownloadTriage.Event.Basic

/-!
# Notices

An event as a dashboard gets it: with the agent that tells of it, and a stamp of its own.
-/

namespace DownloadTriage

/-- What tells one notice from another: an identifier and a time. -/
structure Stamp where
  id : String
  time : String
  deriving DecidableEq, Repr

/-- An event as a dashboard gets it. -/
structure Notice where
  stamp : Stamp
  channel : String
  payload : Json
  agentId : String

namespace Notice

/-- The notice of an event. -/
def ofEvent (stamp : Stamp) (agentId : String) (e : Event) : Notice :=
  ⟨stamp, e.channel, e.dashboardPayload, agentId⟩

/-- The notice as it is written. -/
def json (n : Notice) : Json :=
  .obj [("id", .str n.stamp.id), ("channel", .str n.channel), ("payload", n.payload),
    ("timestamp", .str n.stamp.time), ("agentId", .str n.agentId)]

end Notice

end DownloadTriage
