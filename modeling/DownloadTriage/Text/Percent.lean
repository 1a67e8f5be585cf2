import DownloadTriage.Text.Hex

/-!
# Percent escapes

A byte that may not stand for itself is written as `%` and two upper-case digits. Controls and what
is not ASCII never stand for themselves; which other characters do not depends on the place.

* `isPlain_encode`: what is written is printable ASCII.
-/

namespace DownloadTriage.Percent

/-- A byte that stands for itself where the characters of `escaped` do not. -/
def isKept (escaped : String) (b : UInt8) : Bool :=
  0x20 ≤ b && b ≤ 0x7E && !escaped.toList.any fun c => c.toNat == b.toNat

/-- The text of a byte. -/
def encodeByte (escaped : String) (b : UInt8) : List Char :=
  if isKept escaped b then [Char.ofNat b.toNat] else '%' :: (Hex.ofByte b).map Char.toUpper

/-- The text of bytes. -/
def encode (escaped : String) (bs : List UInt8) : List Char := bs.flatMap (encodeByte escaped)

/-- The bytes that a text with escapes stands for. A `%` without two digits stands for itself. -/
def decode : List UInt8 → List UInt8
  | 0x25 :: h :: l :: rest =>
    match Hex.value? h, Hex.value? l with
    | some x, some y => UInt8.ofNat (x * 16 + y) :: decode rest
    | _, _ => 0x25 :: decode (h :: l :: rest)
  | b :: rest => b :: decode rest
  | [] => []

/-- A printable ASCII character. -/
def IsPlain (c : Char) : Prop := 0x20 ≤ c.toNat ∧ c.toNat ≤ 0x7E

theorem isPlain_digit {n : Nat} (h : n < 16) : IsPlain (Hex.digit n).toUpper := by
  have all : ∀ m ∈ List.range 16, 0x20 ≤ (Hex.digit m).toUpper.toNat ∧
      (Hex.digit m).toUpper.toNat ≤ 0x7E := by decide
  exact all n (List.mem_range.2 h)

theorem isPlain_encode {escaped : String} {bs : List UInt8} {c : Char}
    (h : c ∈ encode escaped bs) : IsPlain c := by
  obtain ⟨b, _, hc⟩ := List.mem_flatMap.1 h
  have hb := b.toNat_lt
  rw [encodeByte] at hc
  split at hc
  · next hk =>
    obtain rfl := List.mem_singleton.1 hc
    simp only [isKept, Bool.and_eq_true, decide_eq_true_eq] at hk
    have low := UInt8.le_iff_toNat_le.1 hk.1.1
    have high := UInt8.le_iff_toNat_le.1 hk.1.2
    have low : 0x20 ≤ b.toNat := low
    have high : b.toNat ≤ 0x7E := high
    have : (Char.ofNat b.toNat).toNat = b.toNat := by
      rw [Char.ofNat, dif_pos (Or.inl (by omega))]; rfl
    exact ⟨by omega, by omega⟩
  · simp only [Hex.ofByte, List.map_cons, List.map_nil, List.mem_cons, List.not_mem_nil,
      or_false] at hc
    rcases hc with rfl | rfl | rfl
    · exact ⟨by decide, by decide⟩
    · exact isPlain_digit (by omega)
    · exact isPlain_digit (by omega)

end DownloadTriage.Percent
