import DownloadTriage.Machine.Decoder
import DownloadTriage.Pe.Mapping
import DownloadTriage.Text.Hex

/-!
# The code at the entry point

A short run of instructions from the entry point on, up to the first return. The decoder is not
trusted to keep to the limit it is given.
-/

namespace DownloadTriage

/-- An instruction as it is shown. -/
structure CodeLine where
  address : String
  mnemonic : String
  operands : String
  deriving DecidableEq, Repr

/-- What is known of shown code. -/
structure CodeInfo where
  arch : String
  entryRva : UInt32
  is64 : Option Bool
  deriving DecidableEq, Repr

/-- The line that shows an instruction. -/
def CodeLine.ofInstruction (i : Instruction) : CodeLine :=
  ⟨Hex.prefixed i.address.toNat, i.mnemonic, i.operands⟩

namespace Pe

/-- Shown code and the image it is from. -/
structure Snippet where
  lines : List CodeLine
  entryRva : UInt32
  is64 : Bool
  deriving DecidableEq, Repr

/-- The name of the architecture. -/
def Snippet.arch (s : Snippet) : String := if s.is64 then "x86_64" else "x86"

/-- What an event says of the code. -/
def Snippet.eventInfo (s : Snippet) : CodeInfo := ⟨s.arch, s.entryRva, some s.is64⟩

/-- What a scan's report says of the code. -/
def Snippet.reportInfo (s : Snippet) : CodeInfo := ⟨s.arch, s.entryRva, none⟩

/-- Why there is no code to show. -/
inductive SnippetError where
  | malformed (fault : HeaderFault)
  | unmapped
  | decoder (error : DecodeError)
  deriving DecidableEq, Repr

/-- What is said of a failure. -/
def SnippetError.message : SnippetError → String
  | malformed f => f.message
  | unmapped => "Entry point not mapped to a file offset"
  | decoder e => e.message

/-- The bytes that are decoded at most. -/
def windowSize : Nat := 1024

/-- The instructions that are shown at most. -/
def maxInstructions : Nat := 200

/-- The instruction returns. -/
def returns (i : Instruction) : Bool := (asciiLower i.mnemonic).startsWith "ret"

/-- The instructions up to the first that returns, at most `n`. -/
def upToReturn : Nat → List Instruction → List Instruction
  | 0, _ => []
  | _ + 1, [] => []
  | n + 1, i :: is => if returns i then [i] else i :: upToReturn n is

/-- What the decoder is asked for an image, once its headers are known: the window at the entry
point. -/
def snippetRequest (b : Array UInt8) (h : Headers) : Option DecodeRequest :=
  match offsetOfRva h.entryRva h.sections with
  | none => none
  | some o =>
    if o < b.size then
      some ⟨b.extract o (min b.size (o + windowSize)), h.entryRva.toUInt64, h.is64, maxInstructions⟩
    else none

/-- What the decoder is asked for an image, or why it is not asked. -/
def snippetQuery (b : Array UInt8) : Except SnippetError (Headers × DecodeRequest) :=
  match parseHeaders b with
  | .error f => .error (.malformed f)
  | .ok h =>
    match snippetRequest b h with
    | none => .error .unmapped
    | some r => .ok (h, r)

/-- The code shown for an image from the decoder's answer. -/
def Snippet.ofAnswer (h : Headers) : Except DecodeError (List Instruction) →
    Except SnippetError Snippet
  | .error e => .error (.decoder e)
  | .ok is => .ok ⟨(upToReturn maxInstructions is).map CodeLine.ofInstruction, h.entryRva, h.is64⟩

/-- The code at the entry point of an image. -/
def snippet (decode : Decoder) (b : Array UInt8) : Except SnippetError Snippet :=
  match snippetQuery b with
  | .error e => .error e
  | .ok (h, r) => Snippet.ofAnswer h (decode r)

end Pe

end DownloadTriage
