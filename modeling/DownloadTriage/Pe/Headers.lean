import DownloadTriage.Files.Tree

/-!
# Headers of a PE image

The walk from the DOS header over the COFF and optional headers to the section table of an untrusted
image: bitness, entry point and sections. Every access is checked, and a section table cut short by
the end of the image gives the sections that fit.
-/

namespace DownloadTriage.Pe

/-- One entry of the section table. -/
structure Section where
  name : String
  virtualSize : UInt32
  virtualAddress : UInt32
  sizeOfRawData : UInt32
  pointerToRawData : UInt32
  deriving DecidableEq, Repr

/-- What is read of an image's headers. -/
structure Headers where
  entryRva : UInt32
  is64 : Bool
  sections : List Section
  deriving DecidableEq, Repr

/-- Why bytes are no image. -/
inductive HeaderFault where
  | tooSmall
  | offsetOutside
  | noSignature
  | fieldOutside
  deriving DecidableEq, Repr

/-- What is said of a fault. -/
def HeaderFault.message : HeaderFault → String
  | tooSmall => "Malformed PE header: file too small to be a valid PE"
  | offsetOutside => "Malformed PE header: invalid PE header offset"
  | noSignature => "Malformed PE header: not a PE file"
  | fieldOutside => "Malformed PE header: field out of range"

/-- The smallest image. -/
def minSize : Nat := 0x100

/-- Where the DOS header says at which offset the PE header stands. -/
def offsetField : Nat := 0x3C

/-- The bytes of the signature and the COFF header. -/
def fixedHeader : Nat := 0x18

/-- The optional header's mark of a 64-bit image. -/
def magic64 : UInt16 := 0x20B

/-- The bytes of an entry of the section table. -/
def sectionSize : Nat := 40

/-- The little-endian 16-bit field at an offset. -/
def field16? (b : Array UInt8) (i : Nat) : Option UInt16 := do
  let x ← b[i]?
  let y ← b[i + 1]?
  some (x.toUInt16 ||| (y.toUInt16 <<< 8))

/-- The little-endian 32-bit field at an offset. -/
def field32? (b : Array UInt8) (i : Nat) : Option UInt32 := do
  let x ← b[i]?
  let y ← b[i + 1]?
  let z ← b[i + 2]?
  let w ← b[i + 3]?
  some (x.toUInt32 ||| (y.toUInt32 <<< 8) ||| (z.toUInt32 <<< 16) ||| (w.toUInt32 <<< 24))

/-- Whether the signature stands at an offset. -/
def hasSignature (b : Array UInt8) (i : Nat) : Bool :=
  b[i]? == some 0x50 && b[i + 1]? == some 0x45 && b[i + 2]? == some 0 && b[i + 3]? == some 0

/-- The bytes of a section's name up to the last one that is not zero. -/
def nameBytes (b : Array UInt8) (i : Nat) : List UInt8 :=
  (((List.range 8).map fun k => b.getD (i + k) 0).reverse.dropWhile (· == 0)).reverse

/-- The entry of the section table at an offset, if it lies inside the image. -/
def section? (b : Array UInt8) (i : Nat) : Option Section :=
  if i + sectionSize ≤ b.size then do
    some ⟨Utf8.lossy (nameBytes b i), ← field32? b (i + 8), ← field32? b (i + 12),
      ← field32? b (i + 16), ← field32? b (i + 20)⟩
  else none

/-- The first `n` entries of the section table at an offset, as far as they lie inside the image. -/
def sectionTable (b : Array UInt8) (i : Nat) : Nat → List Section
  | 0 => []
  | n + 1 =>
    match section? b i with
    | some s => s :: sectionTable b (i + sectionSize) n
    | none => []

/-- The headers whose PE header stands at offset `p`. -/
def headersAt (b : Array UInt8) (p : Nat) : Option Headers := do
  let count ← field16? b (p + 6)
  let optionalSize ← field16? b (p + 20)
  let magic ← field16? b (p + 24)
  let entry ← field32? b (p + 40)
  some ⟨entry, magic == magic64, sectionTable b (p + 24 + optionalSize.toNat) count.toNat⟩

/-- The headers of an image. -/
def parseHeaders (b : Array UInt8) : Except HeaderFault Headers :=
  if b.size < minSize then .error .tooSmall
  else
    match field32? b offsetField with
    | none => .error .fieldOutside
    | some p =>
      if b.size < p.toNat + fixedHeader then .error .offsetOutside
      else if !hasSignature b p.toNat then .error .noSignature
      else
        match headersAt b p.toNat with
        | some h => .ok h
        | none => .error .fieldOutside

end DownloadTriage.Pe
