import DownloadTriage.Proofs.Quoting
import Mathlib.Tactic.IntervalCases

/-!
# The lossy reading of text

The lossy reading takes any bytes. On the bytes of a text it loses nothing: the first byte of each
character promises as many further bytes as the encoding wrote, each in the range the promise gives.

* `lossyChars_encode`: a character in front is read and the bytes behind it are untouched.
* `lossy_bytes`: a text comes back from its bytes.
* `getLast?_bytes_ne_zero`: the last byte is zero only if the last character is NUL.
-/

namespace DownloadTriage.Utf8

variable {bits d n : Nat} {low high : UInt8} {rest : List UInt8}

/-! ## What a first byte promises -/

theorem lead?_two (hlow : 2 ≤ n) (hhigh : n < 0x20) :
    lead? (UInt8.ofNat (n + 0xC0)) = some ⟨n, 0x80, 0xBF, 0⟩ := by
  interval_cases n <;> rfl

/-- The first byte of three excludes the shorter forms and the surrogates. -/
theorem lead?_three (h : n < 0x10) : lead? (UInt8.ofNat (n + 0xE0)) =
    some ⟨n, if n = 0 then 0xA0 else 0x80, if n = 0xD then 0x9F else 0xBF, 1⟩ := by
  interval_cases n <;> rfl

/-- The first byte of four excludes the shorter forms and what lies beyond the last character. -/
theorem lead?_four (h : n < 5) : lead? (UInt8.ofNat (n + 0xF0)) =
    some ⟨n, if n = 0 then 0x90 else 0x80, if n = 4 then 0x8F else 0xBF, 2⟩ := by
  interval_cases n <;> rfl

theorem lead?_ascii (h : n < 0x80) : lead? (UInt8.ofNat n) = none := by
  have hnone : ∀ n < 0x80, (lead? (UInt8.ofNat n)).isNone = true := by decide +kernel
  exact Option.isNone_iff_eq_none.1 (hnone n h)

/-! ## The bytes that go on -/

theorem toNat_ofNat (h : n < 0x100) : (UInt8.ofNat n).toNat = n := UInt8.toNat_ofNat_of_lt' h

/-- The byte that carries six bits. -/
theorem toNat_tail (h : d < 0x40) : (UInt8.ofNat (d + 0x80)).toNat = d + 0x80 :=
  toNat_ofNat (by omega)

theorem tail_within (h : d < 0x40) (hlow : low.toNat ≤ d + 0x80) (hhigh : d + 0x80 ≤ high.toNat) :
    (decide (low ≤ UInt8.ofNat (d + 0x80)) && decide (UInt8.ofNat (d + 0x80) ≤ high)) = true := by
  rw [Bool.and_eq_true, decide_eq_true_iff, decide_eq_true_iff, UInt8.le_iff_toNat_le,
    UInt8.le_iff_toNat_le, toNat_tail h]
  exact ⟨hlow, hhigh⟩

/-- The last byte of a character completes its number. -/
theorem follow_last (h : d < 0x40) (hlow : low.toNat ≤ d + 0x80) (hhigh : d + 0x80 ≤ high.toNat) :
    follow bits low high 0 (UInt8.ofNat (d + 0x80) :: rest) = (1, some (bits * 64 + d)) := by
  rw [follow, if_pos (tail_within h hlow hhigh), toNat_tail h, Nat.add_sub_cancel]

/-- A byte before the last hands its bits on. -/
theorem follow_more (low high : UInt8) (h : d < 0x40) (hlow : low.toNat ≤ d + 0x80)
    (hhigh : d + 0x80 ≤ high.toNat) {k v : Nat}
    (hrest : follow (bits * 64 + d) 0x80 0xBF n rest = (k, some v)) :
    follow bits low high (n + 1) (UInt8.ofNat (d + 0x80) :: rest) = (k + 1, some v) := by
  rw [follow, if_pos (tail_within h hlow hhigh), toNat_tail h, Nat.add_sub_cancel]
  dsimp only
  rw [hrest]

/-! ## Characters -/

theorem lossyChars_of_lead {b : UInt8} {l : Lead} {k v : Nat} (hlead : lead? b = some l)
    (hfollow : follow l.bits l.low l.high l.more rest = (k, some v)) :
    lossyChars (b :: rest) = Char.ofNat v :: lossyChars (rest.drop k) := by
  rw [lossyChars, hlead]
  dsimp only
  rw [hfollow]
  rfl

theorem lossyChars_ascii (h : n < 0x80) :
    lossyChars (UInt8.ofNat n :: rest) = Char.ofNat n :: lossyChars rest := by
  have hn : (UInt8.ofNat n).toNat = n := toNat_ofNat (by omega)
  rw [lossyChars, lead?_ascii h]
  dsimp only
  rw [if_pos (UInt8.lt_iff_toNat_lt.2 (by rw [hn]; exact h)), hn]

/-- **A character in front** is read from its bytes, and no more than these are taken. -/
theorem lossyChars_encode (c : Char) (rest : List UInt8) :
    lossyChars (String.utf8EncodeChar c ++ rest) = c :: lossyChars rest := by
  have hback : Char.ofNat c.val.toNat = c := Char.ofNat_toNat c
  have hvalid : c.val.toNat < 0xD800 ∨ 0xDFFF < c.val.toNat ∧ c.val.toNat < 0x110000 := c.valid
  unfold String.utf8EncodeChar
  dsimp only
  generalize c.val.toNat = v at hback hvalid ⊢
  split
  · rw [List.singleton_append, lossyChars_ascii (by omega), hback]
  split
  · have hlead : lead? (UInt8.ofNat (v / 64 % 32 + 192)) = some ⟨v / 64 % 32, 0x80, 0xBF, 0⟩ :=
      lead?_two (by omega) (by omega)
    have hlast : follow (v / 64 % 32) 0x80 0xBF 0 (UInt8.ofNat (v % 64 + 128) :: rest) =
        (1, some (v / 64 % 32 * 64 + v % 64)) :=
      follow_last (by omega) (by simp) (by simp; omega)
    have hv : v / 64 % 32 * 64 + v % 64 = v := by omega
    rw [hv] at hlast
    rw [List.cons_append, List.singleton_append, lossyChars_of_lead hlead hlast, hback]
    rfl
  split
  · have hlead := lead?_three (n := v / 4096 % 16) (by omega)
    have hlast : follow (v / 4096 % 16 * 64 + v / 64 % 64) 0x80 0xBF 0
        (UInt8.ofNat (v % 64 + 128) :: rest) =
        (1, some ((v / 4096 % 16 * 64 + v / 64 % 64) * 64 + v % 64)) :=
      follow_last (by omega) (by simp) (by simp; omega)
    have hv : (v / 4096 % 16 * 64 + v / 64 % 64) * 64 + v % 64 = v := by omega
    rw [hv] at hlast
    -- the second byte stays in the range that the first one leaves
    have hmore := follow_more (if v / 4096 % 16 = 0 then 0xA0 else 0x80)
      (if v / 4096 % 16 = 0xD then 0x9F else 0xBF) (by omega)
      (by split <;> simp; omega) (by split <;> simp <;> omega) hlast
    rw [List.cons_append, List.cons_append, List.singleton_append,
      lossyChars_of_lead hlead hmore, hback]
    rfl
  · have hlead := lead?_four (n := v / 262144 % 8) (by omega)
    have hlast : follow ((v / 262144 % 8 * 64 + v / 4096 % 64) * 64 + v / 64 % 64) 0x80 0xBF 0
        (UInt8.ofNat (v % 64 + 128) :: rest) =
        (1, some (((v / 262144 % 8 * 64 + v / 4096 % 64) * 64 + v / 64 % 64) * 64 + v % 64)) :=
      follow_last (by omega) (by simp) (by simp; omega)
    have hv : ((v / 262144 % 8 * 64 + v / 4096 % 64) * 64 + v / 64 % 64) * 64 + v % 64 = v := by
      omega
    rw [hv] at hlast
    have hthird := follow_more 0x80 0xBF (by omega) (by simp) (by simp; omega) hlast
    have hmore := follow_more (if v / 262144 % 8 = 0 then 0x90 else 0x80)
      (if v / 262144 % 8 = 4 then 0x8F else 0xBF) (by omega)
      (by split <;> simp; omega) (by split <;> simp <;> omega) hthird
    rw [List.cons_append, List.cons_append, List.cons_append, List.singleton_append,
      lossyChars_of_lead hlead hmore, hback]
    rfl

/-- **A text comes back from its bytes.** -/
theorem lossy_bytes (s : String) : lossy (bytes s) = s := by
  have hchars (cs : List Char) : lossyChars (cs.flatMap String.utf8EncodeChar) = cs := by
    induction cs with
    | nil => rw [List.flatMap_nil, lossyChars]
    | cons c cs ih => rw [List.flatMap_cons, lossyChars_encode, ih]
  rw [lossy]
  conv => lhs; rw [← String.ofList_toList (s := s), Json.bytes_ofList, hchars]
  exact String.ofList_toList

/-! ## The last byte -/

/-- Of all characters only NUL has a zero among its bytes. -/
theorem getLast?_encode_ne_zero {c : Char} (hc : c ≠ Char.ofNat 0) :
    (String.utf8EncodeChar c).getLast? ≠ some 0 := by
  intro hlast
  have hmem := List.mem_of_getLast? hlast
  by_cases hascii : c.val.toNat ≤ 127
  · unfold String.utf8EncodeChar at hmem
    rw [if_pos hascii, List.mem_singleton] at hmem
    have hzero : c.val.toNat = 0 := by
      have := congrArg UInt8.toNat hmem
      rw [toNat_ofNat (by omega)] at this
      exact this.symm
    apply hc
    rw [← Char.ofNat_toNat c, Char.toNat, hzero]
  · have := UInt8.le_iff_toNat_le.1 (Json.high_of_not_ascii hascii 0 hmem)
    simp at this

/-- **The last byte of a text** is zero only if its last character is NUL. -/
theorem getLast?_bytes_ne_zero {s : String} (h : s.toList.getLast? ≠ some (Char.ofNat 0)) :
    (bytes s).getLast? ≠ some 0 := by
  rw [← String.ofList_toList (s := s), Json.bytes_ofList]
  rcases List.eq_nil_or_concat s.toList with hnil | ⟨cs, c, hcs⟩
  · rw [hnil]
    simp
  · rw [hcs, List.concat_eq_append, List.getLast?_concat] at h
    have hlast := getLast?_encode_ne_zero fun hc => h (congrArg some hc)
    rw [hcs, List.concat_eq_append, List.flatMap_append, List.flatMap_singleton,
      List.getLast?_append]
    cases hb : (String.utf8EncodeChar c).getLast? with
    | none => exact absurd (List.getLast?_eq_none_iff.1 hb) String.utf8EncodeChar_ne_nil
    | some b =>
      rw [hb] at hlast
      exact hlast

end DownloadTriage.Utf8
