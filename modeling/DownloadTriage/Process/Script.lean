import DownloadTriage.Text.Split
import DownloadTriage.Text.Utf8

/-!
# Scripts

The commands of a script and the words in them. A word is made of parts, of which some are written
as they stand and others are put in when the command runs: the value of a parameter, what another
script prints, or a number.
-/

namespace DownloadTriage

/-- Any bytes: the texts of scripts, arguments and streams. -/
abbrev Bytes := List UInt8

/-- The bytes of a text. -/
abbrev bytes (s : String) : Bytes := Utf8.bytes s

/-- The byte of an ASCII character. -/
def byte (c : Char) : UInt8 := UInt8.ofNat c.toNat

/-- The bytes of a number. -/
def decimal (n : Nat) : Bytes := bytes (toString n)

/-- The order of texts by their bytes. -/
def bytesLe : Bytes → Bytes → Bool
  | [], _ => true
  | _ :: _, [] => false
  | a :: as, b :: bs => a < b || (a == b && bytesLe as bs)

namespace Script

/-- What becomes of the value of a parameter on its way into a word. -/
inductive Use where
  | value
  | length
  /-- The word stands for a value that is missing. -/
  | orElse
  /-- The word becomes the value where there is none. -/
  | assign
  /-- The word says why there must be a value. -/
  | require
  /-- The word stands for any value that is there. -/
  | instead
  /-- A pattern is cut off at the start or the end, as much or as little of it as can be. -/
  | cut (atEnd longest : Bool)
  /-- A use that there is not. -/
  | broken
  deriving DecidableEq, Repr

/-- How a stream is attached to a descriptor. -/
inductive Attach where
  | read
  | write
  /-- Over a file that must not be lost otherwise. -/
  | overwrite
  | append
  | both
  /-- The same as another descriptor, or closed. -/
  | same
  /-- The text that follows in the script, by its number. -/
  | here (doc : Nat)
  deriving DecidableEq, Repr

/-- How a command follows another. -/
inductive Connector where
  | always
  | ifOk
  | ifFailed
  deriving DecidableEq, Repr

mutual

/-- A part of a word. What is quoted stays one field. -/
inductive Part where
  | text (bs : Bytes) (quoted : Bool)
  /-- A parameter; `strict` counts an empty value as missing. -/
  | parameter (name : Bytes) (use : Use) (strict : Bool) (word : List Part) (quoted : Bool)
  /-- What a command prints. -/
  | printed (c : Command) (quoted : Bool)
  | number (expression : List Part) (quoted : Bool)

/-- A stream attached to a descriptor. -/
inductive Redirect where
  | mk (descriptor : Nat) (attach : Attach) (target : List Part)

/-- A command. -/
inductive Command where
  | nothing
  | simple (assignments : List (Bytes × List Part)) (words : List (List Part))
      (redirects : List Redirect) (line : Nat)
  | pipeline (commands : List Command)
  | negated (c : Command)
  | joined (first : Command) (connector : Connector) (second : Command)
  | background (c : Command)
  | subshell (c : Command)
  | redirected (c : Command) (redirects : List Redirect) (line : Nat)
  | choice (question yes no : Command)
  /-- A loop that ends when its question is answered with `stop`. -/
  | loop (stop : Bool) (question body : Command)
  | each (name : Bytes) (words : List (List Part)) (body : Command) (line : Nat)
  /-- The first branch with a matching pattern. -/
  | select (word : List Part) (branches : List (List (List Part) × Command)) (line : Nat)
  | define (name : Bytes) (body : Command)

end

/-- A word by its parts. -/
abbrev Word := List Part

instance : Inhabited Part := ⟨.text [] false⟩
instance : Inhabited Command := ⟨.nothing⟩

/-- A text that follows in the script; it is taken as it stands if its mark was quoted. -/
structure HereDoc where
  number : Nat
  body : Word

/-! ## Characters -/

/-- Letters and the underscore. -/
def isNameStart (b : UInt8) : Bool :=
  (byte 'a' ≤ b && b ≤ byte 'z') || (byte 'A' ≤ b && b ≤ byte 'Z') || b == byte '_'

/-- A digit. -/
def isDigit (b : UInt8) : Bool := byte '0' ≤ b && b ≤ byte '9'

/-- Letters, digits and the underscore. -/
def isNameByte (b : UInt8) : Bool := isNameStart b || isDigit b

/-- A name that a value can be given to. -/
def isName : Bytes → Bool
  | [] => false
  | b :: bs => isNameStart b && bs.all isNameByte

/-- Names of one byte that are no letters. -/
def isSpecialName (b : UInt8) : Bool := (bytes "@*#?$!-").contains b

/-- The number that digits spell. -/
def number? (bs : Bytes) : Option Nat :=
  if bs = [] ∨ !bs.all isDigit then none
  else some (bs.foldl (fun n b => n * 10 + (b.toNat - 48)) 0)

/-- The word of bytes as they stand. -/
def Word.ofBytes (bs : Bytes) : Word := if bs = [] then [] else [.text bs true]

/-- The bytes of a word without quotes and without anything to put in. -/
def Word.plain? : Word → Option Bytes
  | [] => some []
  | .text bs false :: ps => (Word.plain? ps).map (bs ++ ·)
  | _ :: _ => none

/-- The bytes of a word as if nothing in it were quoted. -/
def Word.bare (w : Word) : Bytes :=
  w.flatMap fun p => match p with
    | .text bs _ => bs
    | _ => []

/-- Whether some of a word is quoted. -/
def Word.isQuoted (w : Word) : Bool :=
  w.any fun p => match p with
    | .text _ q => q
    | .parameter _ _ _ _ q => q
    | .printed _ q => q
    | .number _ q => q

end Script

end DownloadTriage
