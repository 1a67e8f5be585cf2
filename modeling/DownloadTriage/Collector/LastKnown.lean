import DownloadTriage.Files.Tree
import DownloadTriage.Host.Log
import DownloadTriage.Json.Reader
import DownloadTriage.Json.Record
import DownloadTriage.Json.Writer

/-!
# The last collector that answered

Its URL is kept in a file, so that it is tried first after a restart. A record that cannot be read
is as good as none, and one that cannot be written is only logged.
-/

namespace DownloadTriage.LastKnown

open Json

/-- The name of the record's field. -/
def names : List String := ["baseUrl"]

/-- The record of a URL. -/
def encode (url : String) : List UInt8 := Json.encode (assemble names [some (str url)])

/-- The URL of a record. -/
def ofJson? (v : Json) : Option String := do
  match ← slots? names v with
  | [a] => required asString a
  | _ => none

/-- The URL that a content records, unless it is empty. -/
def decode? (content : List UInt8) : Option String :=
  (((Utf8.decode? content).bind fun _ => Json.read content).bind ofJson?).filter (· ≠ "")

/-- The URL that the file at a path records. Without a path nothing is recorded. -/
def load (t : FileTree) : Option Path → Option String
  | none => none
  | some p =>
    match t.read p with
    | .ok data => decode? data.toList
    | .error _ => none

/-- The files after a URL was recorded, and what is logged. -/
def save (t : FileTree) (url : String) : Option Path → FileTree × List LogLine
  | none => (t, [])
  | some p =>
    match t.write p (encode url).toArray with
    | .ok t => (t, [])
    | .error e => (t, [.warn ("[Server] Could not persist last known server: " ++ e.message)])

end DownloadTriage.LastKnown
