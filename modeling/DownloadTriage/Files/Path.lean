import DownloadTriage.Text.Blank
import DownloadTriage.Text.Split
import DownloadTriage.Text.Utf8

/-!
# Paths

A path is any bytes, with a slash between names. Empty names and `.` say nothing.
-/

namespace DownloadTriage

/-- A path as the bytes that spell it. -/
structure Path where
  bytes : List UInt8
  deriving DecidableEq, Repr, Inhabited

namespace Path

/-- What separates names. -/
def separator : UInt8 := 0x2F

/-- The path that a text spells. -/
def ofText (s : String) : Path := ⟨Utf8.bytes s⟩

/-- The path as text, U+FFFD for what is not UTF-8. -/
def text (p : Path) : String := Utf8.lossy p.bytes

/-- The path as text, if it is UTF-8. -/
def text? (p : Path) : Option String := Utf8.decode? p.bytes

/-- The pieces between separators. -/
def pieces (bs : List UInt8) : List (List UInt8) := split separator bs

/-- The name of the directory above. -/
def parentName : List UInt8 := [0x2E, 0x2E]

/-- The names along the path, `..` among them. -/
def names (p : Path) : List (List UInt8) :=
  (pieces p.bytes).filter fun n => n ≠ [] ∧ n ≠ [0x2E]

/-- Whether the path starts at the root. -/
def isAbsolute (p : Path) : Bool := p.bytes.head? == some separator

/-- Whether a relative path says that it starts from where one is. -/
def startsHere (p : Path) : Bool := (pieces p.bytes).head? == some [0x2E]

/-- Whether two paths lead the same way, however many separators they are spelled with. -/
def sameWay (p q : Path) : Bool :=
  p.isAbsolute == q.isAbsolute && p.startsHere == q.startsHere && p.names == q.names

/-- The last name, unless it is `..`. -/
def fileName? (p : Path) : Option (List UInt8) := p.names.getLast?.filter (· ≠ parentName)

/-- The last step, if it is a name and neither `.` nor `..`. -/
def lastStep? (p : Path) : Option (List UInt8) :=
  ((pieces p.bytes).reverse.find? (· ≠ [])).filter fun n => n ≠ [0x2E] ∧ n ≠ parentName

/-- The last name as text, the whole path where there is none. -/
def fileName (p : Path) : String := ((p.fileName?.map Utf8.lossy).getD p.text)

/-- The path followed by another, which stands alone when it is absolute. -/
def join (p q : Path) : Path :=
  if q.isAbsolute then q
  else if p.bytes = [] ∨ p.bytes.getLast? = some separator then ⟨p.bytes ++ q.bytes⟩
  else ⟨p.bytes ++ separator :: q.bytes⟩

/-- The absolute path of names from the root. -/
def ofNames (ns : List (List UInt8)) : Path :=
  ⟨if ns = [] then [separator] else ns.flatMap (separator :: ·)⟩

/-- Whether a file of that name is never reported: hidden, or a partial download. Without a name
there is nothing to report. -/
def isIgnored (p : Path) : Bool :=
  match p.fileName? with
  | none => true
  | some n =>
    let name := asciiLower (Utf8.lossy n)
    name.startsWith "." || name.endsWith ".tmp" || name.endsWith ".crdownload"

end Path

end DownloadTriage
