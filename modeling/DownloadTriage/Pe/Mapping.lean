import DownloadTriage.Pe.Headers

/-!
# From virtual addresses to file offsets

The first section that spans an address and gives it an offset of 32 bits maps it. Addresses and
lengths are added as natural numbers, so nothing wraps.
-/

namespace DownloadTriage.Pe

/-- The length of the section in memory or in the file, whichever is larger. -/
def Section.span (s : Section) : Nat := max s.virtualSize.toNat s.sizeOfRawData.toNat

/-- The section spans the address. -/
def Section.Spans (s : Section) (rva : UInt32) : Prop :=
  s.virtualAddress.toNat ≤ rva.toNat ∧ rva.toNat < s.virtualAddress.toNat + s.span

instance (s : Section) (rva : UInt32) : Decidable (s.Spans rva) :=
  inferInstanceAs (Decidable (_ ∧ _))

/-- The file offset that a section which spans the address gives it. -/
def Section.offset (s : Section) (rva : UInt32) : Nat :=
  s.pointerToRawData.toNat + (rva.toNat - s.virtualAddress.toNat)

/-- The file offset of an address. A spanning section whose offset does not fit 32 bits maps to
nothing itself, and the search goes on behind it. -/
def offsetOfRva (rva : UInt32) (sections : List Section) : Option Nat :=
  sections.findSome? fun s =>
    if s.Spans rva then
      if s.offset rva < UInt32.size then some (s.offset rva) else none
    else none

end DownloadTriage.Pe
