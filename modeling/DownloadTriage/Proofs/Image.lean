import DownloadTriage.Pe.Image
import DownloadTriage.Proofs.Layout
import DownloadTriage.Proofs.Lossy

/-!
# Reading the headers that were laid out

An image is laid out piece by piece over zeros. A piece is read back at its place as long as no later
one touches it, so the walk over the headers finds what was laid out, and of the section table the
entries that fit.

* `bytesAt_written_of_apart`: pieces that lie apart from some bytes leave them alone.
* `bytesAt_written`: a piece is read back if the pieces behind it lie apart from it.
* `sectionTable_written`: the section table is its first sections, as far as whole entries fit.
* `parseHeaders_image`: the headers of an image are what it was laid out from.
-/

namespace DownloadTriage.Pe

open Digest (littleEndian length_littleEndian)

variable {b : Array UInt8} {i j k n len : Nat} {bs : List UInt8} {p : Piece} {ps : List Piece}
variable {s : Section} {sections : List Section} {is64 : Bool} {entry : UInt32}

/-! ## One write -/

theorem size_writeAt (b : Array UInt8) (i : Nat) (bs : List UInt8) :
    (writeAt b i bs).size = b.size := by
  induction bs generalizing b i with
  | nil => rfl
  | cons x rest ih => rw [writeAt, ih, Array.size_setIfInBounds]

theorem getD_setIfInBounds_of_ne {x : UInt8} (h : i ≠ j) :
    (b.setIfInBounds i x).getD j 0 = b.getD j 0 := by
  rw [Array.getD_eq_getD_getElem?, Array.getD_eq_getD_getElem?, Array.getElem?_setIfInBounds_ne h]

/-- Bytes outside the write stay. -/
theorem getD_writeAt_of_apart (h : j < i ∨ i + bs.length ≤ j) :
    (writeAt b i bs).getD j 0 = b.getD j 0 := by
  induction bs generalizing b i with
  | nil => rfl
  | cons x rest ih =>
    rw [List.length_cons] at h
    rw [writeAt, ih (by omega), getD_setIfInBounds_of_ne (by omega)]

/-- What is written is read. -/
theorem getD_writeAt (hk : k < bs.length) (h : i + bs.length ≤ b.size) :
    (writeAt b i bs).getD (i + k) 0 = bs[k] := by
  induction bs generalizing b i k with
  | nil => exact absurd hk (Nat.not_lt_zero k)
  | cons x rest ih =>
    rw [List.length_cons] at h hk
    rw [writeAt]
    cases k with
    | zero =>
      rw [getD_writeAt_of_apart (by omega), Array.getD_eq_getD_getElem?, Nat.add_zero,
        Array.getElem?_setIfInBounds_self_of_lt (by omega)]
      rfl
    | succ k =>
      have hrest := ih (b := b.setIfInBounds i x) (i := i + 1) (k := k) (by omega)
        (by rw [Array.size_setIfInBounds]; omega)
      rw [List.getElem_cons_succ, ← hrest]
      congr 1
      omega

/-! ## Pieces -/

/-- The piece does not touch the `n` bytes from an offset on. -/
def Piece.Apart (p : Piece) (i n : Nat) : Prop := i + n ≤ p.offset ∨ p.offset + p.bytes.length ≤ i

theorem Piece.Apart.one (h : p.Apart i n) (hk : k < n) : p.Apart (i + k) 1 := by
  unfold Piece.Apart at *
  omega

theorem written_cons (b : Array UInt8) (p : Piece) (ps : List Piece) :
    written b (p :: ps) = written (writeAt b p.offset p.bytes) ps := rfl

theorem written_append (b : Array UInt8) (ps qs : List Piece) :
    written b (ps ++ qs) = written (written b ps) qs := List.foldl_append

theorem size_written (b : Array UInt8) (ps : List Piece) : (written b ps).size = b.size := by
  induction ps generalizing b with
  | nil => rfl
  | cons p ps ih => rw [written_cons, ih, size_writeAt]

theorem getD_written_of_apart (h : ∀ p ∈ ps, p.Apart i 1) :
    (written b ps).getD i 0 = b.getD i 0 := by
  induction ps generalizing b with
  | nil => rfl
  | cons p ps ih =>
    obtain ⟨hp, hps⟩ := List.forall_mem_cons.1 h
    rw [written_cons, ih hps, getD_writeAt_of_apart]
    unfold Piece.Apart at hp
    omega

/-- **Pieces that lie apart** from some bytes leave them alone. -/
theorem bytesAt_written_of_apart (hin : i + n ≤ b.size) (h : ∀ p ∈ ps, p.Apart i n) :
    bytesAt (written b ps) i n = bytesAt b i n := by
  rw [bytesAt_eq (by rw [size_written]; exact hin), bytesAt_eq hin]
  apply List.map_congr_left
  intro k hk
  exact getD_written_of_apart fun p hp => (h p hp).one (List.mem_range.1 hk)

/-- **A piece is read back** if the pieces behind it lie apart from it. -/
theorem bytesAt_written (hin : i + bs.length ≤ b.size) (h : ∀ p ∈ ps, p.Apart i bs.length) :
    bytesAt (written b (⟨i, bs⟩ :: ps)) i bs.length = bs := by
  rw [written_cons, bytesAt_written_of_apart (by rw [size_writeAt]; exact hin) h,
    bytesAt_eq (by rw [size_writeAt]; exact hin)]
  apply List.ext_getElem
  · simp
  · intro k _ hk
    rw [List.getElem_map, List.getElem_range]
    exact getD_writeAt hk hin

/-- No two pieces of the list touch each other. -/
def Separate (ps : List Piece) : Prop :=
  ps.Pairwise fun p q => q.Apart p.offset p.bytes.length

/-- Of separate pieces each one is read back. -/
theorem Separate.bytesAt (hps : Separate ps) (hp : p ∈ ps)
    (hin : p.offset + p.bytes.length ≤ b.size) :
    bytesAt (written b ps) p.offset p.bytes.length = p.bytes := by
  induction ps generalizing b with
  | nil => cases hp
  | cons q ps ih =>
    obtain ⟨hq, htail⟩ := List.pairwise_cons.1 hps
    rcases List.mem_cons.1 hp with rfl | hp
    · exact bytesAt_written hin hq
    · rw [written_cons]
      exact ih htail hp (by rw [size_writeAt]; exact hin)

/-! ## Numbers -/

theorem ofDigits_littleEndian (n v : Nat) :
    Nat.ofDigits 256 ((littleEndian n v).map UInt8.toNat) = v % 256 ^ n := by
  induction n generalizing v with
  | zero => rw [littleEndian, List.map_nil, Nat.ofDigits_nil, Nat.pow_zero, Nat.mod_one]
  | succ n ih =>
    have hbyte : (UInt8.ofNat (v % 256)).toNat = v % 256 :=
      Utf8.toNat_ofNat (Nat.mod_lt _ (by decide))
    rw [littleEndian, List.map_cons, Nat.ofDigits_cons, ih, hbyte, Nat.pow_succ', Nat.mod_mul]

/-- A number is read back where its bytes were laid. -/
theorem numberAt_of_bytesAt {v : Nat} (h : bytesAt b i n = littleEndian n v) (hv : v < 256 ^ n) :
    numberAt b i n = v := by
  rw [numberAt, h, ofDigits_littleEndian, Nat.mod_eq_of_lt hv]

theorem Separate.numberAt {v : Nat} (hps : Separate ps) (hp : ⟨i, littleEndian n v⟩ ∈ ps)
    (hin : i + n ≤ b.size) (hv : v < 256 ^ n) : numberAt (written b ps) i n = v := by
  have hbytes := hps.bytesAt (b := b) hp (by rw [length_littleEndian]; exact hin)
  rw [length_littleEndian] at hbytes
  exact numberAt_of_bytesAt hbytes hv

/-! ## Names -/

/-- The bytes from an offset on are all zero. -/
def ZeroFrom (b : Array UInt8) (i : Nat) : Prop := ∀ j, i ≤ j → b.getD j 0 = 0

theorem ZeroFrom.bytesAt (h : ZeroFrom b i) (hin : i + n ≤ b.size) :
    bytesAt b i n = List.replicate n 0 := by
  rw [bytesAt_eq hin, List.eq_replicate_iff]
  constructor
  · rw [List.length_map, List.length_range]
  · intro x hx
    obtain ⟨k, -, rfl⟩ := List.mem_map.1 hx
    exact h _ (Nat.le_add_right i k)

theorem bytesAt_add (m : Nat) (hin : i + m + n ≤ b.size) :
    bytesAt b i (m + n) = bytesAt b i m ++ bytesAt b (i + m) n := by
  rw [bytesAt_eq (by omega), bytesAt_eq (by omega), bytesAt_eq hin, List.range_add, List.map_append,
    List.map_map]
  simp only [Function.comp_def, Nat.add_assoc]

/-- Zeros behind bytes that do not end in one are trimmed, and no more. -/
theorem trim_zeros (h : bs.getLast? ≠ some 0) :
    ((bs ++ List.replicate n 0).reverse.dropWhile (· == 0)).reverse = bs := by
  rw [List.reverse_append, List.reverse_replicate, List.dropWhile_append_of_pos]
  · rcases List.eq_nil_or_concat bs with rfl | ⟨init, x, rfl⟩
    · rfl
    · rw [List.concat_eq_append, List.getLast?_concat] at h
      rw [List.concat_eq_append, List.reverse_concat, List.dropWhile_cons_of_neg]
      · rw [List.reverse_cons, List.reverse_reverse]
      · intro hx
        exact h (congrArg some (eq_of_beq hx))
  · intro x hx
    rw [List.eq_of_mem_replicate hx]
    rfl

/-! ## Entries -/

/-- An entry can hold the section: its name fits, and does not end in the byte that pads names. -/
structure Section.Storable (s : Section) : Prop where
  short : (Utf8.bytes s.name).length ≤ 8
  ended : s.name.toList.getLast? ≠ some (Char.ofNat 0)

theorem Section.Storable.take_bytes (h : s.Storable) :
    (Utf8.bytes s.name).take 8 = Utf8.bytes s.name := List.take_of_length_le h.short

theorem Section.pieces_separate (s : Section) (i : Nat) : Separate (s.pieces i) := by
  simp [Separate, Section.pieces, Piece.Apart, length_littleEndian]

/-- An entry's pieces lie inside it. -/
theorem Section.pieces_apart (h : j + n ≤ i ∨ i + sectionSize ≤ j) :
    ∀ p ∈ s.pieces i, p.Apart j n := by
  have hname : ((Utf8.bytes s.name).take 8).length ≤ 8 := List.length_take_le 8 _
  unfold sectionSize at h
  simp only [Section.pieces, List.forall_mem_cons, Piece.Apart, length_littleEndian,
    List.not_mem_nil, false_imp_iff, implies_true, and_true]
  omega

/-- The name's bytes and what pads them. -/
theorem bytesAt_name (hs : s.Storable) (hzero : ZeroFrom b i) (hin : i + sectionSize ≤ b.size) :
    bytesAt (written b (s.pieces i)) i 8 =
      Utf8.bytes s.name ++ List.replicate (8 - (Utf8.bytes s.name).length) 0 := by
  have hshort := hs.short
  unfold sectionSize at hin
  have hsize : (written b (s.pieces i)).size = b.size := size_written b _
  have hbytes : bytesAt (written b (s.pieces i)) i (Utf8.bytes s.name).length =
      Utf8.bytes s.name := by
    have h := (s.pieces_separate i).bytesAt (b := b) (p := ⟨i, (Utf8.bytes s.name).take 8⟩)
      (by simp [Section.pieces]) (by rw [hs.take_bytes]; dsimp only; omega)
    rw [hs.take_bytes] at h
    exact h
  have hpadding : bytesAt (written b (s.pieces i)) (i + (Utf8.bytes s.name).length)
      (8 - (Utf8.bytes s.name).length) = List.replicate (8 - (Utf8.bytes s.name).length) 0 := by
    rw [bytesAt_written_of_apart (by omega)]
    · exact ZeroFrom.bytesAt (fun j hj => hzero j (by omega)) (by omega)
    · simp only [Section.pieces, List.forall_mem_cons, Piece.Apart, length_littleEndian,
        hs.take_bytes, List.not_mem_nil, false_imp_iff, implies_true, and_true]
      omega
  have hsum : 8 = (Utf8.bytes s.name).length + (8 - (Utf8.bytes s.name).length) := by omega
  conv => lhs; rw [hsum]
  rw [bytesAt_add _ (by omega), hbytes, hpadding]

/-- **An entry is read back.** -/
theorem sectionAt_written (hs : s.Storable) (hzero : ZeroFrom b i)
    (hin : i + sectionSize ≤ b.size) : sectionAt (written b (s.pieces i)) i = s := by
  have hname : nameBytes (written b (s.pieces i)) i = Utf8.bytes s.name := by
    rw [nameBytes_eq (by rw [size_written]; unfold sectionSize at hin; omega),
      bytesAt_name hs hzero hin]
    exact trim_zeros (Utf8.getLast?_bytes_ne_zero hs.ended)
  have hfield (k : Nat) (x : UInt32) (hk : k + 4 ≤ sectionSize)
      (hp : ⟨i + k, littleEndian 4 x.toNat⟩ ∈ s.pieces i) :
      UInt32.ofNat (numberAt (written b (s.pieces i)) (i + k) 4) = x := by
    rw [(s.pieces_separate i).numberAt hp (by omega) x.toNat_lt, UInt32.ofNat_toNat]
  unfold sectionAt
  rw [hname, Utf8.lossy_bytes, hfield 8 s.virtualSize (by decide) (by simp [Section.pieces]),
    hfield 12 s.virtualAddress (by decide) (by simp [Section.pieces]),
    hfield 16 s.sizeOfRawData (by decide) (by simp [Section.pieces]),
    hfield 20 s.pointerToRawData (by decide) (by simp [Section.pieces])]

/-! ## The table -/

/-- The table's pieces lie behind its start. -/
theorem tablePieces_apart (h : j + n ≤ i) : ∀ p ∈ tablePieces len i sections, p.Apart j n := by
  induction sections generalizing i with
  | nil => exact fun p hp => absurd hp (List.not_mem_nil)
  | cons s rest ih =>
    rw [tablePieces]
    split
    · intro p hp
      rcases List.mem_append.1 hp with hp | hp
      · exact Section.pieces_apart (.inl h) p hp
      · exact ih (by omega) p hp
    · exact fun p hp => absurd hp (List.not_mem_nil)

/-- What lies apart from the bytes of an entry leaves its section alone. -/
theorem sectionAt_written_of_apart (hin : i + sectionSize ≤ b.size)
    (h : ∀ p ∈ ps, ∀ k m, k + m ≤ sectionSize → p.Apart (i + k) m) :
    sectionAt (written b ps) i = sectionAt b i := by
  have hsame {k m : Nat} (hk : k + m ≤ sectionSize) :
      bytesAt (written b ps) (i + k) m = bytesAt b (i + k) m :=
    bytesAt_written_of_apart (by omega) fun p hp => h p hp k m hk
  have hname : bytesAt (written b ps) i 8 = bytesAt b i 8 := hsame (k := 0) (by decide)
  unfold sectionSize at hin
  unfold sectionAt
  rw [nameBytes_eq (by rw [size_written]; omega), nameBytes_eq (by omega), hname]
  unfold numberAt
  rw [hsame (by decide), hsame (by decide), hsame (by decide), hsame (by decide)]

/-- **The section table is read back**, as far as whole entries fit: the entries written behind one
leave it alone, and an entry leaves the zeros behind it to the next one. -/
theorem sectionTable_written (hsections : ∀ s ∈ sections, s.Storable) (hzero : ZeroFrom b i) :
    sectionTable (written b (tablePieces b.size i sections)) i sections.length =
      sections.take (entriesFrom b i) := by
  induction sections generalizing b i with
  | nil => rw [List.length_nil, sectionTable, List.take_nil]
  | cons s rest ih =>
    obtain ⟨hs, hrest⟩ := List.forall_mem_cons.1 hsections
    rw [tablePieces, List.length_cons, sectionTable, section?_eq, size_written]
    by_cases hin : i + sectionSize ≤ b.size
    · rw [if_pos hin, if_pos hin, entriesFrom_of_fits hin, List.take_succ_cons, written_append]
      dsimp only
      have hsize : (written b (s.pieces i)).size = b.size := size_written b _
      have hentry : sectionAt (written (written b (s.pieces i))
          (tablePieces b.size (i + sectionSize) rest)) i = s := by
        rw [sectionAt_written_of_apart (by rw [hsize]; exact hin)]
        · exact sectionAt_written hs hzero hin
        · intro p hp k m hk
          exact tablePieces_apart (by omega) p hp
      have hbehind : ZeroFrom (written b (s.pieces i)) (i + sectionSize) := by
        intro j hj
        rw [getD_written_of_apart (Section.pieces_apart (.inr hj))]
        exact hzero j (by omega)
      have htable := ih hrest hbehind
      rw [hsize] at htable
      rw [hentry, htable, entriesFrom, entriesFrom, hsize]
    · rw [if_neg hin, if_neg hin, entriesFrom_of_short hin, List.take_zero]

/-! ## The image -/

/-- The image before its section table. -/
def stub (is64 : Bool) (entry : UInt32) (count len : Nat) : Array UInt8 :=
  written (Array.replicate len 0) (headerPieces is64 entry count)

theorem image_eq (is64 : Bool) (entry : UInt32) (sections : List Section) (len : Nat) :
    image is64 entry sections len = written (stub is64 entry sections.length len)
      (tablePieces len (tableStart is64) sections) := by
  rw [image, written_append, stub]

theorem size_stub (is64 : Bool) (entry : UInt32) (count len : Nat) :
    (stub is64 entry count len).size = len := by
  rw [stub, size_written, Array.size_replicate]

theorem size_image (is64 : Bool) (entry : UInt32) (sections : List Section) (len : Nat) :
    (image is64 entry sections len).size = len := by
  rw [image_eq, size_written, size_stub]

theorem headerPieces_separate (is64 : Bool) (entry : UInt32) (count : Nat) :
    Separate (headerPieces is64 entry count) := by
  simp [Separate, headerPieces, Piece.Apart, length_littleEndian, offsetField, headerOffset]

/-- The headers end before the table starts. -/
theorem headerPieces_before (is64 : Bool) (entry : UInt32) (count : Nat) :
    ∀ p ∈ headerPieces is64 entry count, p.offset + p.bytes.length ≤ headerOffset + 44 := by
  simp [headerPieces, length_littleEndian, offsetField, headerOffset]

theorem le_tableStart (is64 : Bool) : headerOffset + 44 ≤ tableStart is64 := by
  cases is64 <;> decide

theorem stub_zeroFrom (is64 : Bool) (entry : UInt32) (count len : Nat) :
    ZeroFrom (stub is64 entry count len) (tableStart is64) := by
  intro j hj
  have hstart := le_tableStart is64
  rw [stub, getD_written_of_apart, Array.getD_eq_getD_getElem?]
  · by_cases hlen : j < len
    · rw [Array.getElem?_replicate, if_pos hlen]
      rfl
    · rw [Array.getElem?_replicate, if_neg hlen]
      rfl
  · intro p hp
    have hend := headerPieces_before is64 entry count p hp
    exact .inr (by omega)

/-- **The headers of an image** are the pieces they were laid out from. -/
theorem bytesAt_image (hlong : minSize ≤ len)
    (hp : p ∈ headerPieces is64 entry sections.length) :
    bytesAt (image is64 entry sections len) p.offset p.bytes.length = p.bytes := by
  have hend := headerPieces_before is64 entry _ p hp
  have hstart := le_tableStart is64
  have hin : p.offset + p.bytes.length ≤ len := by
    unfold minSize at hlong
    unfold headerOffset at hend
    omega
  rw [image_eq, bytesAt_written_of_apart (by rw [size_stub]; exact hin), stub]
  · exact (headerPieces_separate is64 entry _).bytesAt hp (by rw [Array.size_replicate]; exact hin)
  · exact tablePieces_apart (by omega)

theorem numberAt_image {v : Nat} (hlong : minSize ≤ len)
    (hp : ⟨i, littleEndian n v⟩ ∈ headerPieces is64 entry sections.length) (hv : v < 256 ^ n) :
    numberAt (image is64 entry sections len) i n = v := by
  have hbytes := bytesAt_image hlong hp
  rw [length_littleEndian] at hbytes
  exact numberAt_of_bytesAt hbytes hv

theorem peOffset_image (hlong : minSize ≤ len) :
    peOffset (image is64 entry sections len) = headerOffset :=
  numberAt_image hlong (by simp [headerPieces]) (by decide)

theorem tableOffset_image (hlong : minSize ≤ len) :
    tableOffset (image is64 entry sections len) = tableStart is64 := by
  rw [tableOffset, peOffset_image hlong, tableStart, numberAt_image hlong (v := optionalSize is64)]
  · simp [headerPieces]
  · cases is64 <;> decide

theorem declaredSections_image (hlong : minSize ≤ len) (hcount : sections.length ≤ 65535) :
    declaredSections (image is64 entry sections len) = sections.length := by
  rw [declaredSections, peOffset_image hlong]
  exact numberAt_image hlong (by simp [headerPieces]) (by omega)

theorem image_hasHeaders (hlong : minSize ≤ len) : HasHeaders (image is64 entry sections len) where
  long := by rw [size_image]; exact hlong
  fields := by
    rw [size_image, peOffset_image hlong]
    unfold minSize at hlong
    unfold headerOffset
    omega
  signed := by
    rw [peOffset_image hlong]
    exact bytesAt_image (p := ⟨headerOffset, [0x50, 0x45, 0, 0]⟩) hlong (by simp [headerPieces])

theorem entry_image (hlong : minSize ≤ len) :
    (headersOf (image is64 entry sections len)).entryRva = entry := by
  have hentry : numberAt (image is64 entry sections len) (headerOffset + 40) 4 = entry.toNat :=
    numberAt_image hlong (by simp [headerPieces]) entry.toNat_lt
  rw [headersOf, peOffset_image hlong, hentry]
  exact UInt32.ofNat_toNat

theorem is64_image (hlong : minSize ≤ len) :
    (headersOf (image is64 entry sections len)).is64 = is64 := by
  have hmagic : numberAt (image is64 entry sections len) (headerOffset + 24) 2 =
      (magic is64).toNat :=
    numberAt_image hlong (by simp [headerPieces]) (magic is64).toNat_lt
  rw [headersOf, peOffset_image hlong, hmagic, UInt16.ofNat_toNat]
  cases is64 <;> rfl

theorem sections_image (hlong : minSize ≤ len) (hcount : sections.length ≤ 65535)
    (hsections : ∀ s ∈ sections, s.Storable) :
    (headersOf (image is64 entry sections len)).sections =
      sections.take ((len - tableStart is64) / sectionSize) := by
  have htable := sectionTable_written hsections
    (stub_zeroFrom is64 entry sections.length len)
  rw [entriesFrom, size_stub] at htable
  rw [headersOf, tableOffset_image hlong, declaredSections_image hlong hcount, image_eq]
  exact htable

/-- **The headers that were laid out are read**: the width, the entry point and of the sections as
many as there are whole entries between the start of the table and the end of the image; all of them
if the table fits. -/
theorem parseHeaders_image (is64 : Bool) (entry : UInt32) (sections : List Section) (len : Nat)
    (hlong : 0x100 ≤ len) (hcount : sections.length ≤ 65535)
    (hsections : ∀ s ∈ sections, s.Storable) :
    parseHeaders (image is64 entry sections len) =
        .ok ⟨entry, is64, sections.take ((len - tableStart is64) / sectionSize)⟩ ∧
      (tableStart is64 + sectionSize * sections.length ≤ len →
        parseHeaders (image is64 entry sections len) = .ok ⟨entry, is64, sections⟩) := by
  have heta : ∀ h : Headers, h = ⟨h.entryRva, h.is64, h.sections⟩ := fun _ => rfl
  have hparse : parseHeaders (image is64 entry sections len) =
      .ok ⟨entry, is64, sections.take ((len - tableStart is64) / sectionSize)⟩ := by
    rw [(image_hasHeaders hlong).parse, heta (headersOf _), entry_image hlong, is64_image hlong,
      sections_image hlong hcount hsections]
  refine ⟨hparse, fun hfits => ?_⟩
  have hall : sections.length ≤ (len - tableStart is64) / sectionSize := by
    rw [Nat.le_div_iff_mul_le (by decide), Nat.mul_comm]
    omega
  rw [hparse, List.take_of_length_le hall]

/-- Two sections of which only the first one fits; the name of the first has a zero inside. -/
def cutSections : List Section :=
  [⟨"t\x00é", 0x200, 0x1000, 0x200, 0x400⟩, ⟨".data", 0x100, 0x2000, 0xFFFFFFFF, 0x600⟩]

theorem parseHeaders_image_cut : (0x100 ≤ 0x1B7 ∧ cutSections.length ≤ 65535 ∧
      ∀ s ∈ cutSections, s.Storable) ∧
    parseHeaders (image true 0x1010 cutSections 0x1B7) =
      .ok ⟨0x1010, true, [⟨"t\x00é", 0x200, 0x1000, 0x200, 0x400⟩]⟩ := by
  have hsections : ∀ s ∈ cutSections, s.Storable := by
    rw [cutSections, List.forall_mem_cons, List.forall_mem_singleton]
    exact ⟨⟨by decide, by decide⟩, ⟨by decide, by decide⟩⟩
  exact ⟨⟨by decide, by decide, hsections⟩,
    (parseHeaders_image true 0x1010 cutSections 0x1B7 (by decide) (by decide) hsections).1⟩

end DownloadTriage.Pe
