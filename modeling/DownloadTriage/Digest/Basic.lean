import DownloadTriage.Text.Hex

/-!
# Digests by blocks

A digest that works through a message in blocks of 64 bytes: the message, a one bit, zeros, and the
message's length fill the last block. The message is taken in pieces of any size. Bytes that do not
fill a block yet wait for the next piece.

* `absorb_append`: how a message is cut into pieces does not matter.
* `ofPieces_eq`: nor does it matter to the digest.
-/

namespace DownloadTriage

/-- A digest by blocks of 64 bytes, over a chaining value of type `σ`. -/
structure Digest (σ : Type) where
  start : σ
  compress : σ → Array UInt8 → σ
  /-- The eight bytes that close the last block, from the message's length in bits. -/
  lengthField : Nat → List UInt8
  output : σ → List UInt8

namespace Digest

variable {σ : Type}

/-- A digest under way: the chaining value, the bytes that do not fill a block yet, and how many
bytes were taken in all. -/
structure Running (σ : Type) where
  state : σ
  block : List UInt8
  length : Nat
  block_lt : block.length < 64

/-- Nothing taken yet. -/
def begin (d : Digest σ) : Running σ := ⟨d.start, [], 0, by decide⟩

namespace Running

/-- How many bytes the block lacks. -/
def lack (r : Running σ) : Nat := 64 - r.block.length

theorem lack_pos (r : Running σ) : 0 < r.lack := Nat.sub_pos_of_lt r.block_lt

/-- A piece that does not fill the block waits in it. -/
def keep (r : Running σ) (piece : List UInt8) (h : piece.length < r.lack) : Running σ :=
  ⟨r.state, r.block ++ piece, r.length + piece.length, by
    rw [List.length_append, Nat.add_comm]
    exact Nat.add_lt_of_lt_sub h⟩

end Running

/-- What the block lacks fills it, and the block is compressed. -/
def fill (d : Digest σ) (r : Running σ) (bytes : List UInt8) : Running σ :=
  ⟨d.compress r.state (r.block ++ bytes).toArray, [], r.length + bytes.length, by decide⟩

theorem length_take_lt {k : Nat} {piece : List UInt8} :
    (piece.take k).length < k ↔ piece.length < k := by
  rw [List.length_take]
  omega

/-- Take a piece of the message. -/
def absorb (d : Digest σ) (r : Running σ) (piece : List UInt8) : Running σ :=
  -- `piece.length` would be counted anew at every block of a long piece
  if h : (piece.take r.lack).length < r.lack then r.keep piece (length_take_lt.1 h)
  else d.absorb (d.fill r (piece.take r.lack)) (piece.drop r.lack)
termination_by piece.length
decreasing_by
  have := r.lack_pos
  rw [length_take_lt] at h
  rw [List.length_drop]
  omega

theorem absorb_of_lt (d : Digest σ) {r : Running σ} {piece : List UInt8}
    (h : piece.length < r.lack) : d.absorb r piece = r.keep piece h := by
  rw [absorb, dif_pos (length_take_lt.2 h)]

theorem absorb_of_le (d : Digest σ) {r : Running σ} {piece : List UInt8}
    (h : r.lack ≤ piece.length) :
    d.absorb r piece = d.absorb (d.fill r (piece.take r.lack)) (piece.drop r.lack) := by
  rw [absorb, dif_neg (mt length_take_lt.1 (Nat.not_lt.2 h))]

theorem absorb_nil (d : Digest σ) (r : Running σ) : d.absorb r [] = r := by
  have h : ([] : List UInt8).length < r.lack := r.lack_pos
  rw [absorb_of_lt d h]
  simp [Running.keep]

/-- A piece that was kept and the next one go in as one. -/
theorem absorb_keep (d : Digest σ) {r : Running σ} {a : List UInt8} (h : a.length < r.lack)
    (b : List UInt8) : d.absorb (r.keep a h) b = d.absorb r (a ++ b) := by
  have hlack : (r.keep a h).lack = r.lack - a.length := by
    simp only [Running.lack, Running.keep, List.length_append]
    omega
  by_cases hb : b.length < (r.keep a h).lack
  · have hab : (a ++ b).length < r.lack := by
      rw [List.length_append]
      omega
    rw [absorb_of_lt d hb, absorb_of_lt d hab]
    simp [Running.keep, Nat.add_assoc]
  · have hab : r.lack ≤ (a ++ b).length := by
      rw [List.length_append]
      omega
    -- the first piece ends before the block does, so the cut falls into the second one
    have htake : (a ++ b).take r.lack = a ++ b.take (r.lack - a.length) := by
      rw [List.take_append, List.take_of_length_le (Nat.le_of_lt h)]
    have hdrop : (a ++ b).drop r.lack = b.drop (r.lack - a.length) := by
      rw [List.drop_append, List.drop_of_length_le (Nat.le_of_lt h), List.nil_append]
    rw [absorb_of_le d (Nat.not_lt.1 hb), absorb_of_le d hab, hlack, htake, hdrop]
    simp [fill, Running.keep, Nat.add_assoc]

/-- **How a message is cut** into pieces does not matter, wherever the blocks end. -/
theorem absorb_append (d : Digest σ) (r : Running σ) (a b : List UInt8) :
    d.absorb r (a ++ b) = d.absorb (d.absorb r a) b := by
  fun_induction absorb d r a with
  | case1 r a h => exact (absorb_keep d (length_take_lt.1 h) b).symm
  | case2 r a h ih =>
    have hle : r.lack ≤ a.length := Nat.not_lt.1 (mt length_take_lt.2 h)
    have hab : r.lack ≤ (a ++ b).length := by
      rw [List.length_append]
      omega
    rw [absorb_of_le d hab, List.take_append_of_le_length hle, List.drop_append_of_le_length hle, ih]

theorem foldl_absorb (d : Digest σ) (r : Running σ) (pieces : List (List UInt8)) :
    pieces.foldl d.absorb r = d.absorb r pieces.flatten := by
  induction pieces generalizing r with
  | nil => exact (absorb_nil d r).symm
  | cons piece pieces ih => rw [List.foldl_cons, ih, List.flatten_cons, absorb_append]

/-- What follows a message of that many bytes. -/
def padding (d : Digest σ) (length : Nat) : List UInt8 :=
  0x80 :: List.replicate ((119 - length % 64) % 64) 0 ++ d.lengthField (8 * length)

/-- The digest of what was taken. -/
def finish (d : Digest σ) (r : Running σ) : List UInt8 :=
  d.output (d.absorb r (d.padding r.length)).state

/-- The digest of a message given in pieces. -/
def ofPieces (d : Digest σ) (pieces : List (List UInt8)) : List UInt8 :=
  d.finish (pieces.foldl d.absorb d.begin)

/-- The digest of a message. -/
def ofMessage (d : Digest σ) (message : List UInt8) : List UInt8 :=
  d.finish (d.absorb d.begin message)

/-- **In pieces or at once**, the digest is the same. -/
theorem ofPieces_eq (d : Digest σ) (pieces : List (List UInt8)) :
    d.ofPieces pieces = d.ofMessage pieces.flatten := by
  rw [ofPieces, foldl_absorb, ofMessage]

theorem length_ofMessage (d : Digest σ) {n : Nat} (h : ∀ s, (d.output s).length = n)
    (message : List UInt8) : (d.ofMessage message).length = n := h _

/-- The little-endian bytes of a number. -/
def littleEndian : Nat → Nat → List UInt8
  | 0, _ => []
  | n + 1, x => UInt8.ofNat (x % 256) :: littleEndian n (x / 256)

/-- The big-endian bytes of a number. -/
def bigEndian (n x : Nat) : List UInt8 := (littleEndian n x).reverse

theorem length_littleEndian (n x : Nat) : (littleEndian n x).length = n := by
  induction n generalizing x with
  | zero => rfl
  | succ n ih => simp [littleEndian, ih]

theorem length_bigEndian (n x : Nat) : (bigEndian n x).length = n := by
  simp [bigEndian, length_littleEndian]

end Digest

end DownloadTriage
