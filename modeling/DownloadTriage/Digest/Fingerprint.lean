import DownloadTriage.Digest.Md5
import DownloadTriage.Digest.Sha256
import DownloadTriage.Files.OpenFile
import DownloadTriage.Files.Tree

/-!
# Fingerprints of files

A file is known by its SHA-256 and MD5 digests, both taken in one pass over what the reads of the open
file bring.
-/

namespace DownloadTriage

/-- The digests of a file in lower-case hexadecimal; both empty when they are not known. -/
structure Fingerprint where
  sha256 : String
  md5 : String
  deriving DecidableEq, Repr, Inhabited

namespace Fingerprint

/-- No digests. -/
def unknown : Fingerprint := ⟨"", ""⟩

/-- Both digests are there. -/
def isComplete (f : Fingerprint) : Bool := f.sha256 ≠ "" && f.md5 ≠ ""

/-- Two digests under way over the same bytes. -/
structure Running where
  sha256 : Digest.Running Sha256.State
  md5 : Digest.Running Md5.State

/-- Nothing read yet. -/
def begin : Running := ⟨Sha256.digest.begin, Md5.digest.begin⟩

/-- Take a piece that was read. -/
def absorb (r : Running) (piece : List UInt8) : Running :=
  ⟨Sha256.digest.absorb r.sha256 piece, Md5.digest.absorb r.md5 piece⟩

/-- The fingerprint of what was read. -/
def finish (r : Running) : Fingerprint :=
  ⟨String.ofList (Hex.ofBytes (Sha256.digest.finish r.sha256)),
    String.ofList (Hex.ofBytes (Md5.digest.finish r.md5))⟩

/-- The fingerprint of a content read in pieces. -/
def ofPieces (pieces : List (List UInt8)) : Fingerprint := finish (pieces.foldl absorb begin)

/-- The fingerprint of a content at once. -/
def ofBytes (data : List UInt8) : Fingerprint :=
  ⟨String.ofList (Hex.ofBytes (Sha256.digest.ofMessage data)),
    String.ofList (Hex.ofBytes (Md5.digest.ofMessage data))⟩

/-- The room for one read. -/
def pieceSize : Nat := 64 * 1024

/-- The fingerprint of a file could not be taken. -/
structure Failure where
  path : Path
  cause : FileError
  deriving DecidableEq, Repr

/-- What is said of a failure. -/
def Failure.message (f : Failure) : String :=
  "Failed to hash " ++ f.path.text ++ ": " ++ f.cause.message

/-- The fingerprint of the file at a path, read at a pace. -/
def ofFileAt (pace : Pace) (t : FileTree) (p : Path) : Except Failure Fingerprint :=
  match t.read p with
  | .ok data => .ok (ofPieces ((OpenFile.mk data.toList pace).reads pieceSize))
  | .error e => .error ⟨p, e⟩

/-- The fingerprint of the file at a path, where each read fills its room. -/
def ofFile (t : FileTree) (p : Path) : Except Failure Fingerprint :=
  ofFileAt (fun _ => ⟨pieceSize, by decide⟩) t p

end Fingerprint

end DownloadTriage
