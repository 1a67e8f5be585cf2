import DownloadTriage.Json.Basic
import DownloadTriage.Text.Hex
import DownloadTriage.Text.Utf8

/-!
# Writing JSON

The compact form of a value as bytes: no blanks, short escapes where there are any, four
hexadecimal digits for the other control characters, and everything else as it is.
-/

namespace DownloadTriage.Json

/-- The bytes with a meaning in a document. -/
def quote : UInt8 := 0x22
@[inherit_doc quote] def backslash : UInt8 := 0x5C
@[inherit_doc quote] def slash : UInt8 := 0x2F
@[inherit_doc quote] def comma : UInt8 := 0x2C
@[inherit_doc quote] def colon : UInt8 := 0x3A
@[inherit_doc quote] def openBracket : UInt8 := 0x5B
@[inherit_doc quote] def closeBracket : UInt8 := 0x5D
@[inherit_doc quote] def openBrace : UInt8 := 0x7B
@[inherit_doc quote] def closeBrace : UInt8 := 0x7D
@[inherit_doc quote] def letterU : UInt8 := 0x75

/-- The letter that names an escaped byte, where there is one. -/
def shortEscape? (b : UInt8) : Option UInt8 :=
  if b = quote then some quote
  else if b = backslash then some backslash
  else if b = 0x08 then some 0x62
  else if b = 0x0C then some 0x66
  else if b = 0x0A then some 0x6E
  else if b = 0x0D then some 0x72
  else if b = 0x09 then some 0x74
  else none

/-- A byte as it stands in a string. -/
def escapeByte (b : UInt8) : List UInt8 :=
  match shortEscape? b with
  | some e => [backslash, e]
  | none =>
    if b < 0x20 then
      [backslash, letterU, 0x30, 0x30] ++ (Hex.ofByte b).map fun c => UInt8.ofNat c.toNat
    else [b]

/-- The bytes of a string between its quotes. -/
def escape (bs : List UInt8) : List UInt8 := bs.flatMap escapeByte

/-- A text in quotes. -/
def encodeString (s : String) : List UInt8 :=
  quote :: escape (Utf8.bytes s) ++ [quote]

/-- A number. -/
def encodeNumber : Number → List UInt8
  | .integer i => Utf8.bytes (toString i)
  | .float x => Utf8.bytes (x.text .document)

mutual

/-- The compact form of a value. What stands for no value is written as null. -/
def encode : Json → List UInt8
  | null | unreadable => Utf8.bytes "null"
  | bool true => Utf8.bytes "true"
  | bool false => Utf8.bytes "false"
  | num n => encodeNumber n
  | str s => encodeString s
  | arr items => openBracket :: encodeItems items ++ [closeBracket]
  | obj members => openBrace :: encodeMembers members ++ [closeBrace]

/-- Items with commas between them. -/
def encodeItems : List Json → List UInt8
  | [] => []
  | [v] => encode v
  | v :: w :: vs => encode v ++ comma :: encodeItems (w :: vs)

/-- Members with commas between them. -/
def encodeMembers : List (String × Json) → List UInt8
  | [] => []
  | [(n, v)] => encodeString n ++ colon :: encode v
  | (n, v) :: m :: ms => encodeString n ++ colon :: (encode v ++ comma :: encodeMembers (m :: ms))

end

/-- The compact form as text. -/
def compact (v : Json) : String := Utf8.lossy (encode v)

end DownloadTriage.Json
