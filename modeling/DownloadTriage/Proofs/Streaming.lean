import DownloadTriage.Digest.Fingerprint

/-!
# A file read in pieces has the fingerprint of its whole

The reads of an open file cut its content into pieces, and where the cuts fall is not for the program
to choose. The digests put the pieces back together: bytes that do not fill a block wait for the next
piece, so the blocks that are compressed are those of the whole content.

* `OpenFile.reads_iff`: the reads of a file cut it in any way into pieces that are not empty and fit
  the room.
* `Digest.isDigest_iff`: a message at once has the digest of its padded blocks.
* `Fingerprint.ofFileAt_whole`: whatever the pace of its reads, a file has the fingerprint of its
  content at once, which is written out in full.
-/

namespace DownloadTriage

/-! ## The reads of a file -/

namespace OpenFile

variable {f : OpenFile} {room : Nat} {data : List UInt8} {pieces : List (List UInt8)}

theorem length_next_le (f : OpenFile) (room : Nat) : (f.next room).length ≤ room := by
  rw [next, List.length_take]
  omega

/-- With room for a byte, a read that brings nothing found the end. -/
theorem unread_of_next (h : 0 < room) (hn : f.next room = []) : f.unread = [] := by
  have hready := (f.pace 0).property
  rcases List.take_eq_nil_iff.1 hn with hmin | hunread
  · omega
  · exact hunread

/-- The reads leave nothing out. -/
theorem flatten_reads (f : OpenFile) (h : 0 < room) : (f.reads room).flatten = f.unread := by
  fun_induction reads f room with
  | case1 f hn => exact (unread_of_next h hn).symm
  | case2 f hn ih => rw [List.flatten_cons, ih, next_append_rest]

/-- A read that is taken brings something, and no more than there is room for. -/
theorem fits_of_mem_reads {piece : List UInt8} (h : piece ∈ f.reads room) :
    piece ≠ [] ∧ piece.length ≤ room := by
  fun_induction reads f room with
  | case1 f hn => cases h
  | case2 f hn ih =>
    rcases List.mem_cons.1 h with rfl | h
    · exact ⟨hn, length_next_le f room⟩
    · exact ih h

/-- The pace at which each read has the bytes of one piece ready. -/
def paceOf (pieces : List (List UInt8)) : Pace :=
  fun i => ⟨max 1 (pieces.getD i []).length, Nat.le_max_left _ _⟩

/-- At the pace of pieces that fit the room, the first read brings the first one. -/
theorem min_paceOf {piece : List UInt8} (hne : piece ≠ []) (hroom : piece.length ≤ room) :
    min room (paceOf (piece :: pieces) 0).val = piece.length := by
  have hpos := List.length_pos_iff.2 hne
  change min room (max 1 piece.length) = piece.length
  omega

/-- At the pace of pieces that fit the room, the reads bring the pieces. -/
theorem reads_paceOf (h : ∀ piece ∈ pieces, piece ≠ [] ∧ piece.length ≤ room) :
    (OpenFile.mk pieces.flatten (paceOf pieces)).reads room = pieces := by
  induction pieces with
  | nil => rw [reads, if_pos (by simp [next])]
  | cons piece pieces ih =>
    obtain ⟨⟨hne, hroom⟩, hpieces⟩ := List.forall_mem_cons.1 h
    have hnext : (OpenFile.mk (piece :: pieces).flatten (paceOf (piece :: pieces))).next room =
        piece := by
      rw [next, min_paceOf hne hroom, List.flatten_cons, List.take_left]
    have hrest : (OpenFile.mk (piece :: pieces).flatten (paceOf (piece :: pieces))).rest room =
        ⟨pieces.flatten, paceOf pieces⟩ := by
      rw [rest, min_paceOf hne hroom, List.flatten_cons, List.drop_left]
      rfl
    rw [reads, hnext, hrest, if_neg hne, ih hpieces]

/-- **How a file can be read**: in any pieces that make up its content, are not empty and fit the
room, and in no others. -/
theorem reads_iff (h : 0 < room) :
    (∃ pace, (OpenFile.mk data pace).reads room = pieces) ↔
      pieces.flatten = data ∧ ∀ piece ∈ pieces, piece ≠ [] ∧ piece.length ≤ room := by
  constructor
  · rintro ⟨pace, rfl⟩
    exact ⟨flatten_reads _ h, fun piece hpiece => fits_of_mem_reads hpiece⟩
  · rintro ⟨rfl, hpieces⟩
    exact ⟨paceOf pieces, reads_paceOf hpieces⟩

end OpenFile

/-! ## The blocks of a message -/

namespace Digest

variable {σ : Type} {d : Digest σ} {message out : List UInt8} {blocks : List (List UInt8)}

/-- The chaining value after whole blocks. -/
def through (d : Digest σ) (s : σ) (blocks : List (List UInt8)) : σ :=
  blocks.foldl (fun s block => d.compress s block.toArray) s

/-- The digest as it is defined: the message and its padding are blocks of 64 bytes, and the output is
that of the chaining value after all of them. -/
def IsDigest (d : Digest σ) (message out : List UInt8) : Prop :=
  ∃ blocks : List (List UInt8), (∀ block ∈ blocks, block.length = 64) ∧
    blocks.flatten = message ++ d.padding message.length ∧ out = d.output (d.through d.start blocks)

theorem length_absorb (d : Digest σ) (r : Running σ) (piece : List UInt8) :
    (d.absorb r piece).length = r.length + piece.length := by
  fun_induction absorb d r piece with
  | case1 r piece h => rfl
  | case2 r piece h ih =>
    have hle : r.lack ≤ piece.length := Nat.not_lt.1 (mt length_take_lt.2 h)
    have hfill : (d.fill r (piece.take r.lack)).length = r.length + r.lack :=
      congrArg (r.length + ·) (List.length_take_of_le hle)
    rw [ih, hfill, List.length_drop]
    omega

/-- A block that comes when nothing waits is compressed, and nothing waits again. -/
theorem absorb_block {r : Running σ} (hr : r.block = []) {block : List UInt8}
    (hblock : block.length = 64) :
    (d.absorb r block).state = d.compress r.state block.toArray ∧ (d.absorb r block).block = [] := by
  have hlack : r.lack = block.length := by
    rw [Running.lack, hr, hblock]
    rfl
  rw [absorb_of_le d (Nat.le_of_eq hlack), hlack, List.take_length, List.drop_length, absorb_nil,
    fill, hr]
  exact ⟨rfl, rfl⟩

/-- **Whole blocks** go through the chaining value one after another. -/
theorem state_absorb_blocks {r : Running σ} (hr : r.block = [])
    (h : ∀ block ∈ blocks, block.length = 64) :
    (d.absorb r blocks.flatten).state = d.through r.state blocks := by
  induction blocks generalizing r with
  | nil => rw [List.flatten_nil, absorb_nil, through, List.foldl_nil]
  | cons block blocks ih =>
    obtain ⟨hblock, hblocks⟩ := List.forall_mem_cons.1 h
    obtain ⟨hstate, hwaits⟩ := absorb_block (d := d) hr hblock
    rw [List.flatten_cons, absorb_append, ih hwaits hblocks, hstate, through, through,
      List.foldl_cons]

/-- A text of whole blocks can be cut into them. -/
theorem exists_blocks {n : Nat} {text : List UInt8} (h : text.length = 64 * n) :
    ∃ blocks : List (List UInt8), (∀ block ∈ blocks, block.length = 64) ∧ blocks.flatten = text := by
  induction n generalizing text with
  | zero => exact ⟨[], by simp, (List.eq_nil_of_length_eq_zero h).symm⟩
  | succ n ih =>
    have htake : (text.take 64).length = 64 := by
      rw [List.length_take]
      omega
    have hdrop : (text.drop 64).length = 64 * n := by
      rw [List.length_drop]
      omega
    obtain ⟨blocks, hblocks, hflatten⟩ := ih hdrop
    refine ⟨text.take 64 :: blocks, List.forall_mem_cons.2 ⟨htake, hblocks⟩, ?_⟩
    rw [List.flatten_cons, hflatten, List.take_append_drop]

/-- With its padding a message fills its last block. -/
theorem exists_length_padded (hfield : ∀ n, (d.lengthField n).length = 8) (message : List UInt8) :
    ∃ n, (message ++ d.padding message.length).length = 64 * n := by
  refine ⟨(message.length + 72) / 64, ?_⟩
  rw [padding, List.length_append, List.cons_append, List.length_cons, List.length_append,
    List.length_replicate, hfield]
  omega

/-- The padding comes after the message as one more piece. -/
theorem ofMessage_eq (d : Digest σ) (message : List UInt8) : d.ofMessage message =
    d.output (d.absorb d.begin (message ++ d.padding message.length)).state := by
  have hlength : (d.absorb d.begin message).length = message.length := by
    rw [length_absorb]
    exact Nat.zero_add _
  rw [ofMessage, finish, hlength, absorb_append]

theorem ofMessage_of_blocks (h : ∀ block ∈ blocks, block.length = 64)
    (hflatten : blocks.flatten = message ++ d.padding message.length) :
    d.ofMessage message = d.output (d.through d.start blocks) := by
  rw [ofMessage_eq, ← hflatten, state_absorb_blocks rfl h]
  rfl

/-- **A message at once** has the digest of its padded blocks. -/
theorem isDigest_iff (hfield : ∀ n, (d.lengthField n).length = 8) :
    d.IsDigest message out ↔ out = d.ofMessage message := by
  constructor
  · rintro ⟨blocks, hblocks, hflatten, rfl⟩
    exact (ofMessage_of_blocks hblocks hflatten).symm
  · rintro rfl
    obtain ⟨n, hn⟩ := exists_length_padded hfield message
    obtain ⟨blocks, hblocks, hflatten⟩ := exists_blocks hn
    exact ⟨blocks, hblocks, hflatten, ofMessage_of_blocks hblocks hflatten⟩

end Digest

/-! ## The digests of a file -/

/-- So many lower-case hexadecimal digits, and nothing else. -/
def Hex.IsText (n : Nat) (s : String) : Prop :=
  s.length = n ∧ ∀ c ∈ s.toList, c ∈ "0123456789abcdef".toList

theorem Hex.isText_ofBytes {bs : List UInt8} {n : Nat} (h : bs.length = n) :
    IsText (2 * n) (String.ofList (ofBytes bs)) := by
  constructor
  · rw [String.length_ofList, length_ofBytes, h]
  · intro c hc
    rw [String.toList_ofList] at hc
    obtain ⟨k, hk, rfl⟩ := isDigit_ofBytes hc
    have hdigits : ∀ k < 16, digit k ∈ "0123456789abcdef".toList := by decide
    exact hdigits k hk

theorem Hex.IsText.ne_empty {n : Nat} {s : String} (h : IsText (n + 1) s) : s ≠ "" := by
  rintro rfl
  exact Nat.succ_ne_zero n h.1.symm

namespace Fingerprint

theorem foldl_absorb (r : Running) (pieces : List (List UInt8)) :
    pieces.foldl absorb r =
      ⟨pieces.foldl Sha256.digest.absorb r.sha256, pieces.foldl Md5.digest.absorb r.md5⟩ := by
  induction pieces generalizing r with
  | nil => rfl
  | cons piece pieces ih => rw [List.foldl_cons, ih, absorb, List.foldl_cons, List.foldl_cons]

/-- **In one pass over pieces**, both digests are those of the whole. -/
theorem ofPieces_eq (pieces : List (List UInt8)) : ofPieces pieces = ofBytes pieces.flatten := by
  have hpass : ofPieces pieces = ⟨String.ofList (Hex.ofBytes (Sha256.digest.ofPieces pieces)),
      String.ofList (Hex.ofBytes (Md5.digest.ofPieces pieces))⟩ := by
    rw [ofPieces, foldl_absorb]
    rfl
  rw [hpass, Digest.ofPieces_eq, Digest.ofPieces_eq]
  rfl

example : ofPieces [[0x61], [0x62, 0x63]] =
    ⟨"ba7816bf8f01cfea414140de5dae2223b00361a396177a9cb410ff61f20015ad",
      "900150983cd24fb0d6963f7d28e17f72"⟩ := by
  decide +kernel

theorem isText_sha256 (data : List UInt8) : Hex.IsText 64 (ofBytes data).sha256 :=
  Hex.isText_ofBytes (Digest.length_ofMessage _ Sha256.length_output data)

theorem isText_md5 (data : List UInt8) : Hex.IsText 32 (ofBytes data).md5 :=
  Hex.isText_ofBytes (Digest.length_ofMessage _ Md5.length_output data)

theorem isComplete_ofBytes (data : List UInt8) : (ofBytes data).isComplete = true := by
  have hsha := (isText_sha256 data).ne_empty
  have hmd := (isText_md5 data).ne_empty
  simp [isComplete, hsha, hmd]

theorem ofFileAt_of_read {t : FileTree} {p : Path} {data : Array UInt8} (h : t.read p = .ok data)
    (pace : Pace) : ofFileAt pace t p = .ok (ofBytes data.toList) := by
  have hwhole : ((OpenFile.mk data.toList pace).reads pieceSize).flatten = data.toList :=
    OpenFile.flatten_reads _ (by decide)
  unfold ofFileAt
  rw [h]
  dsimp only
  rw [ofPieces_eq, hwhole]

/-- **A file has the fingerprint of its content**, however it is read. Whatever the pace of the reads,
the digests taken piece by piece are those of the content at once, also when each read fills its room.
The paces account for every way to cut a content into pieces that are not empty and no longer than the
room for one read. Both digests are complete, 64 and 32 lower-case hexadecimal digits, and they are
those that SHA-256 and MD5 define by the padded blocks of the content. -/
theorem ofFileAt_whole :
    (∀ (t : FileTree) (p : Path) (data : Array UInt8), t.read p = .ok data →
      (∀ pace, ofFileAt pace t p = .ok (ofBytes data.toList)) ∧
      ofFile t p = .ok (ofBytes data.toList)) ∧
    (∀ (data : List UInt8) (pieces : List (List UInt8)),
      (∃ pace, (OpenFile.mk data pace).reads pieceSize = pieces) ↔
        pieces.flatten = data ∧ ∀ piece ∈ pieces, piece ≠ [] ∧ piece.length ≤ pieceSize) ∧
    (∀ data : List UInt8,
      Hex.IsText 64 (ofBytes data).sha256 ∧ Hex.IsText 32 (ofBytes data).md5 ∧
      (ofBytes data).isComplete = true) ∧
    ∀ data : List UInt8, ∃ sha md : List UInt8,
      Sha256.digest.IsDigest data sha ∧ Md5.digest.IsDigest data md ∧
      ofBytes data = ⟨String.ofList (Hex.ofBytes sha), String.ofList (Hex.ofBytes md)⟩ := by
  refine ⟨?_, ?_, ?_, ?_⟩
  · intro t p data h
    exact ⟨ofFileAt_of_read h, ofFileAt_of_read h _⟩
  · intro data pieces
    exact OpenFile.reads_iff (by decide)
  · intro data
    exact ⟨isText_sha256 data, isText_md5 data, isComplete_ofBytes data⟩
  · intro data
    exact ⟨_, _, (Digest.isDigest_iff Sha256.length_lengthField).2 rfl,
      (Digest.isDigest_iff Md5.length_lengthField).2 rfl, rfl⟩

/-- A file of exactly one block, whose last byte comes with a read of its own. -/
theorem ofFileAt_whole_block :
    let t : FileTree := ⟨[([[0x61]], .file (.holes 64))], []⟩
    t.read (.ofText "/a") = .ok (Array.replicate 64 0) ∧
      ∃ pace, (OpenFile.mk (List.replicate 64 0) pace).reads pieceSize =
          [List.replicate 63 0, [0]] ∧
        ofFileAt pace t (.ofText "/a") = .ok (ofBytes (List.replicate 64 0)) := by
  intro t
  have hread : t.read (.ofText "/a") = .ok (Array.replicate 64 0) := rfl
  obtain ⟨pace, hpace⟩ := (ofFileAt_whole.2.1 (List.replicate 64 0) [List.replicate 63 0, [0]]).2
    ⟨by decide, by decide⟩
  exact ⟨hread, pace, hpace, (ofFileAt_whole.1 _ _ _ hread).1 pace⟩

end Fingerprint

end DownloadTriage
