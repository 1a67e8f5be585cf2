import DownloadTriage.Pe.Headers

/-!
# Probing a file for an image

Whether a file is a PE image is first decided on its head. The whole file gets a second chance, as
its headers may lie beyond the head.
-/

namespace DownloadTriage.Pe

/-- The bytes that are read first. -/
def headSize : Nat := 4096

/-- The bytes carry the headers of an image. -/
def isImage (b : Array UInt8) : Bool := (parseHeaders b).isOk

/-- Whether a file of that content is an image, by its head where that suffices. -/
def probe (data : Array UInt8) : Bool :=
  isImage (data.extract 0 headSize) || (headSize < data.size && isImage data)

/-- Whether the file at a path is an image. -/
def probeFile (t : FileTree) (p : Path) : Except FileError Bool :=
  (t.read p).map probe

/-- What is said when a file cannot be probed. -/
def probeFailure (e : FileError) : String := "IO error: " ++ e.message

end DownloadTriage.Pe
