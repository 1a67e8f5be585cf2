import DownloadTriage.Files.Tree

/-!
# The environment

The variables that a process is started with, and the directory into which the user's downloads go.
-/

namespace DownloadTriage

/-- Variables by name, and the home directory that the system keeps for the user's account. A value
is any bytes. -/
structure Environment where
  entries : List (String × List UInt8)
  accountHome : Option Path

namespace Environment

/-- The bytes of a variable that is set and not empty. -/
def bytes? (e : Environment) (name : String) : Option (List UInt8) :=
  (e.entries.lookup name).filter (· ≠ [])

/-- The text of a variable without blank ends, unless nothing is left or it is no text. -/
def text? (e : Environment) (name : String) : Option String :=
  (((e.entries.lookup name).bind Utf8.decode?).map trim).filter (· ≠ "")

/-- The home directory: the variable's, or the account's. -/
def home? (e : Environment) : Option Path := ((e.bytes? "HOME").map Path.mk).or e.accountHome

end Environment

/-! ## The user's directories -/

namespace UserDirs

/-- A space or a tab. -/
def isGap (b : UInt8) : Bool := b == 0x20 || b == 0x09

/-- The bytes without gaps at both ends. -/
def withoutGaps (bs : List UInt8) : List UInt8 :=
  ((bs.dropWhile isGap).reverse.dropWhile isGap).reverse

/-- A backslash makes the byte after it stand for itself. -/
def unescape : List UInt8 → List UInt8
  | [] => []
  | [b] => if b = 0x5C then [] else [b]
  | b :: c :: bs => if b = 0x5C then c :: unescape bs else b :: unescape (c :: bs)

/-- What stands between double quotes. -/
def quoted? (bs : List UInt8) : Option (List UInt8) :=
  match bs with
  | 0x22 :: rest => if rest.getLast? = some 0x22 then some rest.dropLast else none
  | _ => none

/-- What follows a given beginning. -/
def after? (start bs : List UInt8) : Option (List UInt8) :=
  if start.isPrefixOf bs then some (bs.drop start.length) else none

/-- The directory of a value: one below the home directory, or an absolute one. The home directory
itself stands for no directory. -/
def directory? (home : Path) (value : List UInt8) : Option Path :=
  match after? (Utf8.bytes "$HOME/") value with
  | some [] => none
  | some rest => some (home.join ⟨unescape rest⟩)
  | none => if value.head? = some Path.separator then some ⟨unescape value⟩ else none

/-- The name of the downloads entry. -/
def downloadKey : List UInt8 := Utf8.bytes "XDG_DOWNLOAD_DIR"

/-- The directory that one line names for downloads. -/
def ofLine (home : Path) (line : List UInt8) : Option Path :=
  let key := line.takeWhile (· ≠ 0x3D)
  if withoutGaps key = downloadKey then
    (quoted? (withoutGaps (line.drop (key.length + 1)))).bind (directory? home)
  else none

/-- The file that names the user's directories. -/
def listing (home : Path) : Path := home.join (Path.ofText ".config/user-dirs.dirs")

/-- The directory into which downloads go, by the first line that names one. -/
def downloads? (t : FileTree) (home : Path) : Option Path :=
  match t.read (listing home) with
  | .ok data => (split 0x0A data.toList).findSome? (ofLine home)
  | .error _ => none

end UserDirs

end DownloadTriage
