/-!
# Hexadecimal digits

Lower-case hexadecimal of numbers and of bytes.

* `length_ofBytes`: two digits a byte.
* `isDigit_ofBytes`: nothing but digits.
-/

namespace DownloadTriage.Hex

/-- The digit of a number below 16. -/
def digit (n : Nat) : Char :=
  if n < 10 then Char.ofNat (48 + n) else Char.ofNat (87 + n)

/-- A character that `digit` writes. -/
def IsDigit (c : Char) : Prop := ∃ n < 16, c = digit n

/-- The digits of a number, most significant first, without leading zeros. -/
def digits (n : Nat) : List Char :=
  if n < 16 then [digit n] else digits (n / 16) ++ [digit (n % 16)]
termination_by n
decreasing_by omega

/-- The digits of a number after `0x`. -/
def prefixed (n : Nat) : String := "0x" ++ String.ofList (digits n)

/-- Two digits for a byte. -/
def ofByte (b : UInt8) : List Char := [digit (b.toNat / 16), digit (b.toNat % 16)]

/-- Two digits for each byte. -/
def ofBytes (bs : List UInt8) : List Char := bs.flatMap ofByte

theorem length_ofBytes (bs : List UInt8) : (ofBytes bs).length = 2 * bs.length := by
  induction bs with
  | nil => rfl
  | cons b bs ih =>
    rw [show ofBytes (b :: bs) = ofByte b ++ ofBytes bs from rfl, List.length_append, ih]
    simp only [ofByte, List.length_cons, List.length_nil]; omega

theorem isDigit_ofBytes {bs : List UInt8} {c : Char} (h : c ∈ ofBytes bs) : IsDigit c := by
  obtain ⟨b, _, hc⟩ := List.mem_flatMap.1 h
  have hb := b.toNat_lt
  simp only [ofByte, List.mem_cons, List.not_mem_nil, or_false] at hc
  rcases hc with rfl | rfl
  · exact ⟨_, by omega, rfl⟩
  · exact ⟨_, by omega, rfl⟩

/-- The value of a digit of either case. -/
def value? (c : UInt8) : Option Nat :=
  if 0x30 ≤ c && c ≤ 0x39 then some (c.toNat - 0x30)
  else if 0x61 ≤ c && c ≤ 0x66 then some (c.toNat - 0x57)
  else if 0x41 ≤ c && c ≤ 0x46 then some (c.toNat - 0x37)
  else none

end DownloadTriage.Hex
