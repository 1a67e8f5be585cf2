import DownloadTriage.Pe.Snippet
import DownloadTriage.Report.Wire

/-!
# Images on the wire

Headers, decoder requests and shown code as JSON.
-/

namespace DownloadTriage.Wire

open Json

/-- A section. -/
def ofSection (s : Pe.Section) : Json :=
  obj [("name", str s.name), ("virtual_size", nat s.virtualSize.toNat),
    ("virtual_address", nat s.virtualAddress.toNat),
    ("size_of_raw_data", nat s.sizeOfRawData.toNat),
    ("pointer_to_raw_data", nat s.pointerToRawData.toNat)]

/-- The headers of an image. -/
def ofHeaders (h : Pe.Headers) : Json :=
  obj [("is64", bool h.is64), ("entry_rva", nat h.entryRva.toNat),
    ("sections", arr (h.sections.map ofSection))]

/-- What a decoder is asked, with the first sixteen bytes of the code. -/
def ofDecodeRequest (r : DecodeRequest) : Json :=
  obj [("len", nat r.code.size),
    ("head", str (String.ofList (Hex.ofBytes (r.code.extract 0 16).toList))),
    ("address", nat r.address.toNat), ("is64", bool r.is64), ("max", nat r.limit)]

/-- Shown code, as members. -/
def snippetMembers (s : Pe.Snippet) : List (String × Json) :=
  [("arch", str s.arch), ("entry_rva", nat s.entryRva.toNat), ("is64", bool s.is64),
    ("instructions", arr (s.lines.map ofCodeLine)), ("event_meta", ofCodeInfo s.eventInfo),
    ("result_meta", ofCodeInfo s.reportInfo)]

end DownloadTriage.Wire
