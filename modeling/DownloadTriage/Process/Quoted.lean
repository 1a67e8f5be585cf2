import DownloadTriage.Process.Script

/-!
# Names in complaints

A name that could be mistaken for something else is quoted as one would quote it for a shell: in
apostrophes, or in quotation marks if that is enough for an apostrophe in it; what cannot be printed
is written as an escape.
-/

namespace DownloadTriage.Quoted

open Script

/-- Bytes that never need quotes. -/
def isSafe (b : UInt8) : Bool := isNameByte b || (bytes "%+,-./:@]").contains b

/-- A printable byte. -/
def isPrintable (b : UInt8) : Bool := 0x20 ≤ b && b ≤ 0x7E

/-- Whether a name needs quotes. -/
def needsQuotes (name : Bytes) : Bool :=
  match name with
  | [] => true
  | [b] => !isSafe b
  | b :: rest =>
    !(isSafe b || (bytes "\x7b\x7d").contains b) ||
      rest.any fun c => !(isSafe c || (bytes "\x7b\x7d#~").contains c)

/-- Whether quotation marks are enough. -/
def fitsMarks (name : Bytes) : Bool :=
  match name with
  | [] => true
  | b :: rest =>
    let fits (c : UInt8) : Bool := isSafe c || c == byte ' ' || c == byte '\''
    (fits b || b == byte '#' || b == byte '~') && rest.all fits

/-- The escapes that have a letter. -/
def letters : List (UInt8 × Char) :=
  [(7, 'a'), (8, 'b'), (9, 't'), (10, 'n'), (11, 'v'), (12, 'f'), (13, 'r')]

/-- The escape of a byte that cannot be printed. -/
def escape (b : UInt8) : Bytes :=
  byte '\\' :: match letters.lookup b with
    | some c => [byte c]
    | none => [48 + b / 64, 48 + b / 8 % 8, 48 + b % 8]

/-- A name between apostrophes, of which the first is open; `escaping` says that escapes are being
written. -/
def inApostrophes (escaping : Bool) : Bytes → Bytes
  | [] => [byte '\'']
  | b :: rest =>
    if b = byte '\'' then bytes "'\\''" ++ inApostrophes false rest
    else if isPrintable b then
      (if escaping then bytes "''" else []) ++ b :: inApostrophes false rest
    else (if escaping then [] else bytes "'$'") ++ escape b ++ inApostrophes true rest

/-- A name in quotes. -/
def always (name : Bytes) : Bytes :=
  if name.contains (byte '\'') ∧ fitsMarks name then byte '"' :: name ++ [byte '"']
  else byte '\'' :: inApostrophes false name

/-- A name in quotes if it needs any. -/
def name (name : Bytes) : Bytes := if needsQuotes name then always name else name

end DownloadTriage.Quoted
