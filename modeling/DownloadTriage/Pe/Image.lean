import DownloadTriage.Digest.Basic
import DownloadTriage.Pe.Headers

/-!
# Laying out an image

An image made of headers alone: a stub of a DOS header, the PE header behind it, the optional header
of the chosen width and the section table, written one after the other over zeros. A table that does
not fit is cut behind its last whole entry.
-/

namespace DownloadTriage.Pe

open Digest (littleEndian)

/-- The image with the bytes from an offset on replaced; what would lie beyond its end is lost. -/
def writeAt (b : Array UInt8) (i : Nat) : List UInt8 → Array UInt8
  | [] => b
  | x :: rest => writeAt (b.setIfInBounds i x) (i + 1) rest

/-- Bytes and where they are written. -/
structure Piece where
  offset : Nat
  bytes : List UInt8
  deriving DecidableEq, Repr

/-- The image with all pieces written, in order. -/
def written (b : Array UInt8) (ps : List Piece) : Array UInt8 :=
  ps.foldl (fun b p => writeAt b p.offset p.bytes) b

/-- Where the PE header is put. -/
def headerOffset : Nat := 0x80

/-- The mark of a 32-bit image. -/
def magic32 : UInt16 := 0x10B

/-- The machine that the COFF header names. -/
def machine (is64 : Bool) : Nat := if is64 then 0x8664 else 0x14C

/-- The bytes of the optional header. -/
def optionalSize (is64 : Bool) : Nat := if is64 then 0xF0 else 0xE0

/-- The optional header's mark of the width. -/
def magic (is64 : Bool) : UInt16 := if is64 then magic64 else magic32

/-- Where the section table is put. -/
def tableStart (is64 : Bool) : Nat := headerOffset + 24 + optionalSize is64

/-- The headers before the section table. -/
def headerPieces (is64 : Bool) (entry : UInt32) (count : Nat) : List Piece :=
  [⟨0, [0x4D, 0x5A]⟩,
    ⟨offsetField, littleEndian 4 headerOffset⟩,
    ⟨headerOffset, [0x50, 0x45, 0, 0]⟩,
    ⟨headerOffset + 4, littleEndian 2 (machine is64)⟩,
    ⟨headerOffset + 6, littleEndian 2 count⟩,
    ⟨headerOffset + 20, littleEndian 2 (optionalSize is64)⟩,
    ⟨headerOffset + 24, littleEndian 2 (magic is64).toNat⟩,
    ⟨headerOffset + 40, littleEndian 4 entry.toNat⟩]

/-- The entry of a section; of its name only the first eight bytes. -/
def Section.pieces (s : Section) (i : Nat) : List Piece :=
  [⟨i, (Utf8.bytes s.name).take 8⟩,
    ⟨i + 8, littleEndian 4 s.virtualSize.toNat⟩,
    ⟨i + 12, littleEndian 4 s.virtualAddress.toNat⟩,
    ⟨i + 16, littleEndian 4 s.sizeOfRawData.toNat⟩,
    ⟨i + 20, littleEndian 4 s.pointerToRawData.toNat⟩]

/-- The section table from an offset on, up to the last entry that fits. -/
def tablePieces (len i : Nat) : List Section → List Piece
  | [] => []
  | s :: rest =>
    if i + sectionSize ≤ len then s.pieces i ++ tablePieces len (i + sectionSize) rest else []

/-- The image of a width, an entry point and sections, `len` bytes long. -/
def image (is64 : Bool) (entry : UInt32) (sections : List Section) (len : Nat) : Array UInt8 :=
  written (Array.replicate len 0)
    (headerPieces is64 entry sections.length ++ tablePieces len (tableStart is64) sections)

end DownloadTriage.Pe
