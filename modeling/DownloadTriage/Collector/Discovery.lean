import DownloadTriage.Collector.Candidates
import DownloadTriage.Json.Reader

/-!
# Discovery replies

A collector that is asked by broadcast answers with its service, its port and its addresses. Any
other datagram says nothing.
-/

namespace DownloadTriage

namespace Discovery

open Json

/-- What is broadcast. -/
def question : String := "MAIWARE_SERVER_DISCOVERY"

/-- The service of a collector. -/
def service : String := "mAIware-server"

/-- A datagram is cut to that many bytes. -/
def datagramSize : Nat := 2048

/-- What a datagram says. -/
structure Reply where
  service : String
  port : Option Nat
  ips : List String
  deriving DecidableEq, Repr

/-- The names of a reply's fields. -/
def replyNames : List String := ["service", "port", "ips"]

/-- The reply that a document holds. -/
def Reply.ofJson? (v : Json) : Option Reply := do
  match ← slots? replyNames v with
  | [a, b, c] =>
    some ⟨← required asString a, ← optional (asNatBelow 65536) b, ← orElse [] (asList asString) c⟩
  | _ => none

/-- The URLs of a collector that answered. -/
def Reply.urls (r : Reply) : List String :=
  match r.port with
  | some port =>
    if port ≠ 0 ∧ r.service = Discovery.service then r.ips.map (Whereabouts.urlOf port) else []
  | none => []

/-- The URLs that a datagram advertises. -/
def urls (datagram : List UInt8) : List String :=
  match (Json.read datagram).bind Reply.ofJson? with
  | some r => r.urls
  | none => []

/-- The URLs of one round, datagram by datagram. -/
def round (datagrams : List (List UInt8)) : List String :=
  datagrams.flatMap fun d => urls (d.take datagramSize)

end Discovery

end DownloadTriage
