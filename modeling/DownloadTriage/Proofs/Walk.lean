import DownloadTriage.Proofs.Layout

/-!
# The walk over the headers in machine operations

`parseHeaders` adds offsets as natural numbers and looks up bytes that may be missing. A machine adds
words of 64 bits, cuts a piece out of a buffer and takes elements of it, and each of these traps if
the sum does not fit or an index lies outside. `walk` is the walk over the headers in such
operations: only the cuts it asks for with `piece?` may fail without a trap.

* `walk_eq`: no operation of the walk traps on any image, and it gives what `parseHeaders` gives.
* `parseHeaders_accepts`: what is accepted, by offsets and sizes alone, and how many sections a
  table has that the end of the image cuts short.
-/

namespace DownloadTriage.Pe

/-! ## Machine operations -/

/-- How a computation ends early: it refuses what it was given, or one of its operations traps. -/
inductive Halt (ε : Type) where
  | refused (e : ε)
  | trapped
  deriving DecidableEq

namespace Halt

variable {ε : Type} {b : Array UInt8} {i j k n : Nat}

/-- The sum of two words, if it is one. -/
def add (i j : Nat) : Except (Halt ε) Nat := if i + j < 2 ^ 64 then .ok (i + j) else .error .trapped

/-- The difference of two words, if it is one. -/
def sub (i j : Nat) : Except (Halt ε) Nat := if j ≤ i then .ok (i - j) else .error .trapped

/-- The product of two words, if it is one. -/
def mul (i j : Nat) : Except (Halt ε) Nat := if i * j < 2 ^ 64 then .ok (i * j) else .error .trapped

/-- The piece of a buffer from one index to another, if both lie inside. -/
def piece? (b : Array UInt8) (i j : Nat) : Option (Array UInt8) :=
  if i ≤ j ∧ j ≤ b.size then some (b.extract i j) else none

/-- The piece of a buffer from one index to another. -/
def piece (b : Array UInt8) (i j : Nat) : Except (Halt ε) (Array UInt8) :=
  (piece? b i j).elim (.error .trapped) .ok

/-- The element of a buffer at an index. -/
def element (b : Array UInt8) (i : Nat) : Except (Halt ε) UInt8 := b[i]?.elim (.error .trapped) .ok

/-- A computation goes on with what an operation gives. -/
theorem ok_bind {α β : Type} (a : α) (f : α → Except (Halt ε) β) : (.ok a >>= f) = f a := rfl

theorem add_eq (h : i + j < 2 ^ 64) : (add i j : Except (Halt ε) Nat) = .ok (i + j) := if_pos h

theorem sub_eq (h : j ≤ i) : (sub i j : Except (Halt ε) Nat) = .ok (i - j) := if_pos h

theorem mul_eq (h : i * j < 2 ^ 64) : (mul i j : Except (Halt ε) Nat) = .ok (i * j) := if_pos h

theorem piece_eq (hij : i ≤ j) (hj : j ≤ b.size) :
    (piece b i j : Except (Halt ε) (Array UInt8)) = .ok (b.extract i j) := by
  rw [piece, piece?, if_pos ⟨hij, hj⟩]
  rfl

theorem element_extract (hk : k < n) (h : i + n ≤ b.size) :
    (element (b.extract i (i + n)) k : Except (Halt ε) UInt8) = .ok (b.getD (i + k) 0) := by
  rw [element, Array.getElem?_extract, if_pos (by omega), getElem?_eq_getD (by omega)]
  rfl

end Halt

open Halt

variable {b : Array UInt8} {i n : Nat}

/-! ## The walk -/

/-- A 16-bit field. -/
def readWord16 (b : Array UInt8) (i : Nat) : Except (Halt HeaderFault) UInt16 := do
  let stop ← add i 2
  match piece? b i stop with
  | none => .error (.refused .fieldOutside)
  | some s =>
    let x ← element s 0
    let y ← element s 1
    pure (x.toUInt16 ||| (y.toUInt16 <<< 8))

/-- A 32-bit field. -/
def readWord32 (b : Array UInt8) (i : Nat) : Except (Halt HeaderFault) UInt32 := do
  let stop ← add i 4
  match piece? b i stop with
  | none => .error (.refused .fieldOutside)
  | some s =>
    let x ← element s 0
    let y ← element s 1
    let z ← element s 2
    let w ← element s 3
    pure (x.toUInt32 ||| (y.toUInt32 <<< 8) ||| (z.toUInt32 <<< 16) ||| (w.toUInt32 <<< 24))

/-- The bytes up to the last that is not zero. -/
def nameLength (raw : Array UInt8) : Nat := (raw.toList.reverse.dropWhile (· == 0)).length

/-- The section of an entry. -/
def walkEntry (entry : Array UInt8) : Except (Halt HeaderFault) Section := do
  let raw ← piece entry 0 8
  let name ← piece raw 0 (nameLength raw)
  let virtualSize ← readWord32 entry 8
  let virtualAddress ← readWord32 entry 12
  let sizeOfRawData ← readWord32 entry 16
  let pointerToRawData ← readWord32 entry 20
  pure ⟨Utf8.lossy name.toList, virtualSize, virtualAddress, sizeOfRawData, pointerToRawData⟩

/-- The sections of a table from the `k`-th entry on, at most `n` of them. -/
def walkTable (b : Array UInt8) (table : Nat) : Nat → Nat → Except (Halt HeaderFault) (List Section)
  | _, 0 => pure []
  | k, n + 1 => do
    let start ← add table (← mul sectionSize k)
    let stop ← add start sectionSize
    match piece? b start stop with
    | none => pure []
    | some entry =>
      let s ← walkEntry entry
      let rest ← walkTable b table (k + 1) n
      pure (s :: rest)

/-- The headers behind the signature at `p`. -/
def walkHeaders (b : Array UInt8) (p : Nat) : Except (Halt HeaderFault) Headers := do
  let count ← readWord16 b (← add p 6)
  let optionalSize ← readWord16 b (← add p 20)
  let optional ← add p 24
  let magic ← readWord16 b optional
  let entry ← readWord32 b (← add optional 16)
  let table ← add optional optionalSize.toNat
  let sections ← walkTable b table 0 count.toNat
  pure ⟨entry, magic == magic64, sections⟩

/-- The headers of an image in machine operations. The first sum stops at the largest word. -/
def walk (b : Array UInt8) : Except (Halt HeaderFault) Headers :=
  if b.size < minSize then .error (.refused .tooSmall)
  else do
    let p ← readWord32 b offsetField
    if b.size < min (p.toNat + fixedHeader) (2 ^ 64 - 1) then .error (.refused .offsetOutside)
    else do
      let signature ← piece b p.toNat (← add p.toNat 4)
      if signature ≠ #[0x50, 0x45, 0, 0] then .error (.refused .noSignature)
      else walkHeaders b p.toNat

/-! ## No operation traps -/

theorem readWord16_eq (h : i + 2 < 2 ^ 64) :
    readWord16 b i = (field16? b i).elim (.error (.refused .fieldOutside)) .ok := by
  unfold readWord16
  rw [add_eq h]
  by_cases hi : i + 2 ≤ b.size
  · simp only [bind, Except.bind, piece?, if_pos (And.intro (Nat.le_add_right i 2) hi),
      element_extract (by decide : 0 < 2) hi, element_extract (by decide : 1 < 2) hi, field16?,
      getElem?_eq_getD (show i < b.size by omega), getElem?_eq_getD (show i + 1 < b.size by omega)]
    rfl
  · simp only [bind, Except.bind, piece?, if_neg (fun hp : _ ∧ _ => hi hp.2), field16?_eq, if_neg hi]
    rfl

theorem readWord32_eq (h : i + 4 < 2 ^ 64) :
    readWord32 b i = (field32? b i).elim (.error (.refused .fieldOutside)) .ok := by
  unfold readWord32
  rw [add_eq h]
  by_cases hi : i + 4 ≤ b.size
  · simp only [bind, Except.bind, piece?, if_pos (And.intro (Nat.le_add_right i 4) hi),
      element_extract (by decide : 0 < 4) hi, element_extract (by decide : 1 < 4) hi,
      element_extract (by decide : 2 < 4) hi, element_extract (by decide : 3 < 4) hi, field32?,
      getElem?_eq_getD (show i < b.size by omega), getElem?_eq_getD (show i + 1 < b.size by omega),
      getElem?_eq_getD (show i + 2 < b.size by omega),
      getElem?_eq_getD (show i + 3 < b.size by omega)]
    rfl
  · simp only [bind, Except.bind, piece?, if_neg (fun hp : _ ∧ _ => hi hp.2), field32?_eq, if_neg hi]
    rfl

/-- A field inside the image is read. -/
theorem readWord32_inside (h : i + 4 < 2 ^ 64) (hi : i + 4 ≤ b.size) :
    readWord32 b i = .ok (UInt32.ofNat (numberAt b i 4)) := by
  rw [readWord32_eq h, field32?_eq, if_pos hi]
  rfl

theorem readWord16_inside (h : i + 2 < 2 ^ 64) (hi : i + 2 ≤ b.size) :
    readWord16 b i = .ok (UInt16.ofNat (numberAt b i 2)) := by
  rw [readWord16_eq h, field16?_eq, if_pos hi]
  rfl

/-- What is left in front when what is dropped at the end is counted. -/
theorem take_length_dropWhile {α : Type} (p : α → Bool) (l : List α) :
    l.take (l.reverse.dropWhile p).length = (l.reverse.dropWhile p).reverse := by
  have hl : l = (l.reverse.dropWhile p).reverse ++ (l.reverse.takeWhile p).reverse := by
    rw [← List.reverse_append, List.takeWhile_append_dropWhile, List.reverse_reverse]
  conv_lhs => arg 2; rw [hl]
  exact List.take_left' (List.length_reverse)

theorem nameLength_le (raw : Array UInt8) : nameLength raw ≤ raw.size := by
  have h := (List.dropWhile_suffix (l := raw.toList.reverse) (· == 0)).length_le
  rwa [List.length_reverse, Array.length_toList] at h

/-- The bytes cut out as a section's name are its name. -/
theorem toList_extract_nameLength (raw : Array UInt8) :
    (raw.extract 0 (nameLength raw)).toList =
      (raw.toList.reverse.dropWhile (· == 0)).reverse := by
  rw [Array.toList_extract, List.extract_eq_take_drop, List.drop_zero, Nat.sub_zero, nameLength,
    take_length_dropWhile]

theorem walkEntry_eq (h : i + sectionSize ≤ b.size) :
    walkEntry (b.extract i (i + sectionSize)) = .ok (sectionAt b i) := by
  set entry := b.extract i (i + sectionSize) with hentry
  have hsize : entry.size = 40 := by
    rw [hentry, Array.size_extract, Nat.min_eq_left h, Nat.add_sub_cancel_left]
    rfl
  have hname : (entry.extract 0 8).toList = bytesAt b i 8 := by
    rw [hentry]
    exact bytesAt_extract (i := 0) (n := 8) (by unfold sectionSize; omega)
  have hfield : ∀ k, k + 4 ≤ 40 →
      readWord32 entry k = .ok (UInt32.ofNat (numberAt b (i + k) 4)) := by
    intro k hk
    rw [readWord32_inside (by omega) (by omega), hentry,
      numberAt_extract (by unfold sectionSize; omega)]
  rw [walkEntry, piece_eq (by omega) (by omega), ok_bind,
    piece_eq (Nat.zero_le _) (nameLength_le _), ok_bind, hfield 8 (by omega), ok_bind,
    hfield 12 (by omega), ok_bind, hfield 16 (by omega), ok_bind, hfield 20 (by omega), ok_bind,
    toList_extract_nameLength, hname, ← nameBytes_eq (by unfold sectionSize at h; omega)]
  rfl

theorem walkTable_eq (b : Array UInt8) (table : Nat) {k n : Nat}
    (h : table + sectionSize * (k + n) < 2 ^ 64) :
    walkTable b table k n = .ok (sectionTable b (table + sectionSize * k) n) := by
  induction n generalizing k with
  | zero => rfl
  | succ n ih =>
    have hnext : table + sectionSize * k + sectionSize = table + sectionSize * (k + 1) := by
      rw [Nat.mul_succ, Nat.add_assoc]
    have hroom : table + sectionSize * (k + 1) < 2 ^ 64 :=
      (Nat.add_le_add_left (Nat.mul_le_mul_left _ (by omega)) _).trans_lt h
    rw [walkTable, sectionTable, section?_eq, mul_eq (by omega), ok_bind, add_eq (by omega),
      ok_bind, add_eq (by omega), ok_bind]
    by_cases hfits : table + sectionSize * k + sectionSize ≤ b.size
    · rw [piece?, if_pos ⟨Nat.le_add_right .., hfits⟩, if_pos hfits]
      dsimp only
      rw [walkEntry_eq hfits, ih (by rwa [Nat.succ_add_eq_add_succ]), ← hnext]
      rfl
    · rw [piece?, if_neg (fun hp => hfits hp.2), if_neg hfits]
      rfl

theorem walkHeaders_eq (h : peOffset b + fixedHeader ≤ b.size) :
    walkHeaders b (peOffset b) = if b.size < peOffset b + 44 then
      .error (.refused .fieldOutside) else .ok (headersOf b) := by
  unfold fixedHeader at h
  have hp : peOffset b < 2 ^ 32 := numberAt_lt b offsetField 4
  have hcount : numberAt b (peOffset b + 6) 2 < 2 ^ 16 := numberAt_lt b _ 2
  have hsize : numberAt b (peOffset b + 20) 2 < 2 ^ 16 := numberAt_lt b _ 2
  -- the two fields of the COFF header lie inside, as its signature does
  rw [walkHeaders, add_eq (by omega), ok_bind, readWord16_inside (by omega) (by omega), ok_bind,
    add_eq (by omega), ok_bind, readWord16_inside (by omega) (by omega), ok_bind,
    add_eq (by omega), ok_bind, toNat_numberAt_two, toNat_numberAt_two]
  by_cases hfields : b.size < peOffset b + 44
  · -- the optional header's first field is missing, or else its entry point
    rw [if_pos hfields]
    by_cases hmagic : peOffset b + 24 + 2 ≤ b.size
    · rw [readWord16_inside (by omega) hmagic, ok_bind, add_eq (by omega), ok_bind,
        readWord32_eq (by omega), field32?_eq, if_neg (by omega)]
      rfl
    · rw [readWord16_eq (by omega), field16?_eq, if_neg hmagic]
      rfl
  · rw [if_neg hfields, readWord16_inside (by omega) (by omega), ok_bind, add_eq (by omega),
      ok_bind, readWord32_inside (by omega) (by omega), ok_bind, add_eq (by omega), ok_bind,
      walkTable_eq b _ (by unfold sectionSize; omega), Nat.mul_zero, Nat.add_zero]
    rfl

/-- **The walk never traps**: on every image it gives the headers, or refuses the image for the
fault that `parseHeaders` finds. -/
theorem walk_eq (b : Array UInt8) : walk b = (parseHeaders b).mapError .refused := by
  have hp : peOffset b < 2 ^ 32 := numberAt_lt b offsetField 4
  rw [walk, parseHeaders_eq]
  by_cases hsmall : b.size < minSize
  · rw [if_pos hsmall, if_pos hsmall]
    rfl
  have hfield : readWord32 b offsetField = .ok (UInt32.ofNat (peOffset b)) :=
    readWord32_inside (by decide) (by unfold minSize at hsmall; unfold offsetField; omega)
  have hsum : min (peOffset b + fixedHeader) (2 ^ 64 - 1) = peOffset b + fixedHeader :=
    Nat.min_eq_left (by unfold fixedHeader; omega)
  rw [if_neg hsmall, if_neg hsmall, hfield, ok_bind, toNat_peOffset, hsum]
  by_cases hoffset : b.size < peOffset b + fixedHeader
  · rw [if_pos hoffset, if_pos hoffset]
    rfl
  have hfixed : peOffset b + 24 ≤ b.size := Nat.not_lt.1 hoffset
  rw [if_neg hoffset, if_neg hoffset, add_eq (by omega), ok_bind,
    piece_eq (Nat.le_add_right ..) (by omega), ok_bind, walkHeaders_eq hfixed]
  by_cases hsigned : bytesAt b (peOffset b) 4 = [0x50, 0x45, 0, 0]
  · have hpiece : b.extract (peOffset b) (peOffset b + 4) = #[0x50, 0x45, 0, 0] :=
      Array.toList_inj.1 hsigned
    rw [if_neg (not_not_intro hpiece), if_neg (not_not_intro hsigned)]
    split <;> rfl
  · have hpiece : b.extract (peOffset b) (peOffset b + 4) ≠ #[0x50, 0x45, 0, 0] :=
      fun h => hsigned (congrArg Array.toList h)
    rw [if_pos hpiece, if_pos hsigned]
    rfl

/-! ## What is accepted -/

/-- **The headers of untrusted bytes.** On no image does an operation of the walk trap. An image is
accepted exactly if it has 0x100 bytes, and 44 of them from its signature on; every refusal is told
as a malformed header. The sections of an accepted image are as many as its table declares and whole
entries fit before its end, none if the table begins behind it. -/
theorem parseHeaders_accepts (b : Array UInt8) :
    walk b = (parseHeaders b).mapError .refused ∧
      match parseHeaders b with
      | .ok h => HasHeaders b ∧
          h.sections.length = min (declaredSections b) ((b.size - tableOffset b) / 40) ∧
          (b.size ≤ tableOffset b → h.sections = [])
      | .error f => ¬ HasHeaders b ∧ ∃ reason, f.message = "Malformed PE header: " ++ reason := by
  refine ⟨walk_eq b, ?_⟩
  by_cases h : HasHeaders b
  · rw [h.parse]
    have hlength := length_sections b
    refine ⟨h, hlength, fun htable => List.eq_nil_of_length_eq_zero ?_⟩
    rw [hlength, Nat.sub_eq_zero_of_le htable, Nat.zero_div, Nat.min_zero]
  · obtain ⟨f, hf⟩ := parseHeaders_of_not_hasHeaders h
    rw [hf]
    exact ⟨h, f.message_eq⟩

end DownloadTriage.Pe
