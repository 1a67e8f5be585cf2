import DownloadTriage.Files.Tree
import DownloadTriage.Text.Percent

/-!
# References to an image

A report may refer to an image of the file's control flow. A reference to a file that is there
becomes a URL; any other reference stays as it is.
-/

namespace DownloadTriage.GraphImage

/-- What a URL of a file starts with. -/
def scheme : String := "file://"

/-- The characters that mean something in a URL of a file. -/
def escaped : String := " \"#<>?`\x7b\x7d%\\"

/-- The URL of a file. -/
def urlOfPath (p : Path) : String :=
  let names := p.names.flatMap fun n => '/' :: Percent.encode escaped n
  scheme ++ String.ofList (if names = [] then ['/'] else names)

/-- How a reference is shown, if there is one. -/
def shown (t : FileTree) : Option String → Option String
  | none => none
  | some ref =>
    if ref = "" then none
    else if ref.startsWith scheme then some ref
    else match t.canonicalPath (Path.ofText ref) with
      | .ok p => some (urlOfPath p)
      | .error _ => some ref

end DownloadTriage.GraphImage
