/-!
# UTF-8 in untrusted bytes

Texts and their bytes. `decode?` takes valid UTF-8 only; `lossy` reads anything and writes U+FFFD
for every maximal piece that begins no character.

* `decode?_bytes`: a text is read back from its bytes.
-/

namespace DownloadTriage.Utf8

/-- The bytes of a text. -/
def bytes (s : String) : List UInt8 := s.toByteArray.data.toList

/-- The text that the bytes stand for, if they are valid. -/
def decode? (bs : List UInt8) : Option String := String.fromUTF8? ⟨bs.toArray⟩

theorem decode?_bytes (s : String) : decode? (bytes s) = some s := by
  have h : (⟨(bytes s).toArray⟩ : ByteArray) = s.toByteArray := by simp [bytes]
  unfold decode? String.fromUTF8?
  rw [h, dif_pos s.isValidUTF8]
  rfl

theorem bytes_append (s t : String) : bytes (s ++ t) = bytes s ++ bytes t := by
  simp [bytes, String.toByteArray_append]

/-- What a first byte promises: the bits it carries, the range of the second byte, and how many
further bytes come after that. -/
structure Lead where
  bits : Nat
  low : UInt8
  high : UInt8
  more : Nat

/-- The promise of a first byte, none for ASCII and for a byte that begins no character. -/
def lead? (b : UInt8) : Option Lead :=
  if 0xC2 ≤ b && b ≤ 0xDF then some ⟨b.toNat - 0xC0, 0x80, 0xBF, 0⟩
  else if b == 0xE0 then some ⟨0, 0xA0, 0xBF, 1⟩
  else if b == 0xED then some ⟨0xD, 0x80, 0x9F, 1⟩
  else if 0xE1 ≤ b && b ≤ 0xEF then some ⟨b.toNat - 0xE0, 0x80, 0xBF, 1⟩
  else if b == 0xF0 then some ⟨0, 0x90, 0xBF, 2⟩
  else if b == 0xF4 then some ⟨4, 0x80, 0x8F, 2⟩
  else if 0xF1 ≤ b && b ≤ 0xF3 then some ⟨b.toNat - 0xF0, 0x80, 0xBF, 2⟩
  else none

/-- The bytes from `lows` on that go on a character: how many are taken, and the character's number
when it is complete. -/
def follow (bits : Nat) (low high : UInt8) : Nat → List UInt8 → Nat × Option Nat
  | _, [] => (0, none)
  | more, b :: rest =>
    if low ≤ b && b ≤ high then
      let bits := bits * 64 + (b.toNat - 0x80)
      match more with
      | 0 => (1, some bits)
      | more + 1 =>
        let (taken, value) := follow bits 0x80 0xBF more rest
        (taken + 1, value)
    else (0, none)

/-- What stands for a piece that is no character. -/
def replacement : Char := Char.ofNat 0xFFFD

/-- The characters of any bytes. -/
def lossyChars : List UInt8 → List Char
  | [] => []
  | b :: rest =>
    match lead? b with
    | none => (if b < 0x80 then Char.ofNat b.toNat else replacement) :: lossyChars rest
    | some l =>
      let (taken, value) := follow l.bits l.low l.high l.more rest
      (value.map Char.ofNat).getD replacement :: lossyChars (rest.drop taken)
termination_by bs => bs.length
decreasing_by
  · simp
  · simp only [List.length_drop, List.length_cons]; omega

/-- A text for any bytes; what is not UTF-8 shows as U+FFFD. -/
def lossy (bs : List UInt8) : String := String.ofList (lossyChars bs)

end DownloadTriage.Utf8
