import DownloadTriage.Json.Reader

/-!
# Strings between quotes

Where the body of a string ends (`Body`), and what it stands for (`Spells`): a byte stands for itself,
a backslash and a letter for one byte, a backslash and four digits for a character, and two of these
for a character that is a surrogate pair. A body with half a pair alone spells nothing. The reader
finds both, and what the writer writes is such a body.

* `readStringBody_eq_some_iff`: the reader takes the bodies.
* `textOfBody_eq_some_iff`: and gives what they spell.
* `spells_escape`: the writer spells every text.
* `textOfBody_escape`, `isText_escape`: so a text comes back, and its spelling is text as well.
-/

namespace DownloadTriage.Json

/-! ## The body of a string -/

/-- A hexadecimal digit. -/
def IsHex (b : UInt8) : Prop := (Hex.value? b).isSome = true

/-- **What may stand between the quotes**: any byte but a quote, a backslash or a control character,
and escapes by a letter or by four digits. -/
inductive Body : List UInt8 → Prop
  | nil : Body []
  | byte {b : UInt8} {body : List UInt8} (hq : b ≠ quote) (hb : b ≠ backslash) (hc : 0x20 ≤ b)
      (h : Body body) : Body (b :: body)
  | letter {e : UInt8} {body : List UInt8} (he : isEscapeLetter e = true) (h : Body body) :
      Body (backslash :: e :: body)
  | unit {a b c d : UInt8} {body : List UInt8} (hx : ∀ x ∈ [a, b, c, d], IsHex x) (h : Body body) :
      Body (backslash :: letterU :: a :: b :: c :: d :: body)

/-- **The bytes that a body stands for.** A surrogate stands for nothing unless the other half of its
pair follows. -/
inductive Spells : List UInt8 → List UInt8 → Prop
  | nil : Spells [] []
  | byte {b : UInt8} {body out : List UInt8} (hq : b ≠ quote) (hb : b ≠ backslash) (hc : 0x20 ≤ b)
      (h : Spells body out) : Spells (b :: body) (b :: out)
  | letter {e : UInt8} {body out : List UInt8} (he : isEscapeLetter e = true)
      (h : Spells body out) : Spells (backslash :: e :: body) (unescapeLetter e :: out)
  | unit {a b c d : UInt8} {body out : List UInt8} (hx : ∀ x ∈ [a, b, c, d], IsHex x)
      (hn : hex4 a b c d < 0xD800 ∨ 0xDFFF < hex4 a b c d) (h : Spells body out) :
      Spells (backslash :: letterU :: a :: b :: c :: d :: body) (charBytes (hex4 a b c d) ++ out)
  | pair {a b c d a' b' c' d' : UInt8} {body out : List UInt8}
      (hx : ∀ x ∈ [a, b, c, d], IsHex x) (hx' : ∀ x ∈ [a', b', c', d'], IsHex x)
      (hn : 0xD800 ≤ hex4 a b c d ∧ hex4 a b c d ≤ 0xDBFF)
      (hm : 0xDC00 ≤ hex4 a' b' c' d' ∧ hex4 a' b' c' d' ≤ 0xDFFF) (h : Spells body out) :
      Spells (backslash :: letterU :: a :: b :: c :: d ::
          backslash :: letterU :: a' :: b' :: c' :: d' :: body)
        (charBytes ((hex4 a b c d - 0xD800) * 0x400 + (hex4 a' b' c' d' - 0xDC00) + 0x10000) ++ out)

variable {bs body out rest : List UInt8}

theorem body_of_spells (h : Spells body out) : Body body := by
  induction h with
  | nil => exact .nil
  | byte hq hb hc _ ih => exact .byte hq hb hc ih
  | letter he _ ih => exact .letter he ih
  | unit hx _ _ ih => exact .unit hx ih
  | pair hx hx' _ _ _ ih => exact .unit hx (.unit hx' ih)

theorem ne_letterU_of_isEscapeLetter {e : UInt8} (he : isEscapeLetter e = true) : e ≠ letterU := by
  rintro rfl
  exact absurd he (by decide)

/-! ## The end of a body -/

theorem readStringBody_hex {a b c d : UInt8} (hx : ∀ x ∈ [a, b, c, d], IsHex x)
    (bs : List UInt8) :
    readStringBody .plain (backslash :: letterU :: a :: b :: c :: d :: bs) =
      (readStringBody .plain bs).map fun (s, rest) =>
        (backslash :: letterU :: a :: b :: c :: d :: s, rest) := by
  have hdigit : ∀ x ∈ [a, b, c, d], (Hex.value? x).isSome = true := hx
  simp only [List.forall_mem_cons, List.not_mem_nil, false_imp_iff, implies_true, and_true] at hdigit
  obtain ⟨ha, hb, hc, hd⟩ := hdigit
  have hq : (backslash = quote) = False := by decide
  simp only [readStringBody, hq, if_false, if_true, ha, hb, hc, hd, Option.map_map]
  rfl

theorem readStringBody_complete (h : Body body) (rest : List UInt8) :
    readStringBody .plain (body ++ quote :: rest) = some (body, rest) := by
  have hq : (backslash = quote) = False := by decide
  induction h with
  | nil => simp [readStringBody]
  | byte hq' hb hc h ih =>
    have hlt : ¬ _ < (0x20 : UInt8) := UInt8.not_lt.2 hc
    rw [List.cons_append, readStringBody, if_neg hq', if_neg hb, if_neg hlt, ih]
    rfl
  | @letter e body he h ih =>
    have hu := ne_letterU_of_isEscapeLetter he
    simp only [List.cons_append, readStringBody, hq, if_false, if_true, if_neg hu, he, ih]
    rfl
  | unit hx h ih =>
    simp only [List.cons_append]
    rw [readStringBody_hex hx, ih]
    rfl

/-- In the midst of an escape by digits, these come first. -/
theorem readStringBody_digits {n : Nat} (h : readStringBody (.hex n) bs = some (body, rest)) :
    ∃ ds bs' body', ds.length = n + 1 ∧ (∀ x ∈ ds, IsHex x) ∧ bs = ds ++ bs' ∧ body = ds ++ body' ∧
      readStringBody .plain bs' = some (body', rest) := by
  induction n generalizing bs body with
  | zero =>
    cases bs with
    | nil => cases h
    | cons b bs =>
      rw [readStringBody] at h
      split at h
      · rename_i hx
        obtain ⟨⟨body', rest'⟩, hread, hb⟩ := Option.map_eq_some_iff.1 h
        cases hb
        exact ⟨[b], bs, body', rfl, by simpa [IsHex] using hx, rfl, rfl, hread⟩
      · cases h
  | succ n ih =>
    cases bs with
    | nil => cases h
    | cons b bs =>
      rw [readStringBody] at h
      split at h
      · rename_i hx
        obtain ⟨⟨body', rest'⟩, hread, hb⟩ := Option.map_eq_some_iff.1 h
        cases hb
        obtain ⟨ds, bs', body'', hlen, hds, rfl, rfl, hplain⟩ := ih hread
        exact ⟨b :: ds, bs', body'', by simp [hlen], List.forall_mem_cons.2 ⟨hx, hds⟩, rfl, rfl, hplain⟩
      · cases h

/-- After a backslash an escape comes first. -/
theorem readStringBody_escape_first (h : readStringBody .escaped bs = some (body, rest)) :
    ∃ es bs' body', es ≠ [] ∧ (∀ t, Body t → Body (backslash :: (es ++ t))) ∧ bs = es ++ bs' ∧
      body = es ++ body' ∧ readStringBody .plain bs' = some (body', rest) := by
  cases bs with
  | nil => cases h
  | cons e bs =>
    rw [readStringBody] at h
    split at h
    · rename_i he
      obtain ⟨⟨body', rest'⟩, hread, hbody⟩ := Option.map_eq_some_iff.1 h
      cases hbody
      obtain ⟨ds, bs', body'', hlen, hds, rfl, rfl, hplain⟩ := readStringBody_digits hread
      refine ⟨e :: ds, bs', body'', by simp, fun t ht => ?_, rfl, rfl, hplain⟩
      -- four digits
      match ds, hlen, hds with
      | [a, b, c, d], _, hds => exact he ▸ .unit hds ht
    split at h
    · rename_i he
      obtain ⟨⟨body', rest'⟩, hread, hbody⟩ := Option.map_eq_some_iff.1 h
      cases hbody
      exact ⟨[e], bs, body', by simp, fun t ht => .letter he ht, rfl, rfl, hread⟩
    · cases h

theorem readStringBody_sound (h : readStringBody .plain bs = some (body, rest)) :
    Body body ∧ bs = body ++ quote :: rest := by
  induction hn : bs.length using Nat.strongRecOn generalizing bs body with
  | ind n ih =>
    cases bs with
    | nil => cases h
    | cons b bs =>
      rw [readStringBody] at h
      split at h
      · rename_i hq
        cases h
        exact ⟨.nil, by rw [hq]; rfl⟩
      split at h
      · rename_i hb
        obtain ⟨⟨body', rest'⟩, hread, hbody⟩ := Option.map_eq_some_iff.1 h
        cases hbody
        obtain ⟨es, bs', body'', hes, hbody, rfl, rfl, hplain⟩ := readStringBody_escape_first hread
        have hlt : bs'.length < n := by
          rw [← hn, List.length_cons, List.length_append]
          omega
        obtain ⟨hrest, rfl⟩ := ih _ hlt hplain rfl
        rw [hb]
        exact ⟨hbody _ hrest, by simp⟩
      split at h
      · cases h
      · rename_i hq hb hc
        obtain ⟨⟨body', rest'⟩, hread, hbody⟩ := Option.map_eq_some_iff.1 h
        cases hbody
        obtain ⟨hbody, rfl⟩ := ih _ (by simp [← hn]) hread rfl
        exact ⟨.byte hq hb (UInt8.not_lt.1 hc) hbody, rfl⟩

/-- **The reader finds the end of a body**, which is the first quote that no backslash escapes. -/
theorem readStringBody_eq_some_iff :
    readStringBody .plain bs = some (body, rest) ↔ Body body ∧ bs = body ++ quote :: rest := by
  refine ⟨readStringBody_sound, ?_⟩
  rintro ⟨h, rfl⟩
  exact readStringBody_complete h rest

/-! ## The meaning of a body -/

/-- **The reader knows what a body stands for.** -/
theorem unescape_of_spells (h : Spells body out) : unescape body = some out := by
  induction h with
  | nil => rw [unescape]
  | byte hq hb hc h ih => rw [unescape.eq_def]; simp only [if_neg hb, ih]; rfl
  | @letter e body out he h ih =>
    have hu := ne_letterU_of_isEscapeLetter he
    rw [unescape.eq_def]
    simp only [if_true, if_neg hu, ih]
    rfl
  | @unit a b c d body out hx hn h ih =>
    rw [unescape.eq_def]
    have hlow : ¬ (0xDC00 ≤ hex4 a b c d ∧ hex4 a b c d ≤ 0xDFFF) := by omega
    have hhigh : ¬ (0xD800 ≤ hex4 a b c d ∧ hex4 a b c d ≤ 0xDBFF) := by omega
    simp [hlow, hhigh, ih]
  | @pair a b c d a' b' c' d' body out hx hx' hn hm h ih =>
    rw [unescape.eq_def]
    have hlow : ¬ (0xDC00 ≤ hex4 a b c d ∧ hex4 a b c d ≤ 0xDFFF) := by omega
    simp [hlow, hn, hm, ih]

theorem spells_of_unescape (hbody : Body body) (h : unescape body = some out) : Spells body out := by
  induction hn : body.length using Nat.strongRecOn generalizing body out with
  | ind n ih =>
    cases hbody with
    | nil =>
      rw [unescape] at h
      cases h
      exact .nil
    | @byte b body hq hb hc hbody =>
      rw [unescape.eq_def] at h
      simp only [if_neg hb] at h
      obtain ⟨out', hout, rfl⟩ := Option.map_eq_some_iff.1 h
      exact .byte hq hb hc (ih _ (by simp [← hn]) hbody hout rfl)
    | @letter e body he hbody =>
      rw [unescape.eq_def] at h
      simp only [if_true, if_neg (ne_letterU_of_isEscapeLetter he)] at h
      obtain ⟨out', hout, rfl⟩ := Option.map_eq_some_iff.1 h
      refine .letter he (ih _ ?_ hbody hout rfl)
      rw [← hn]
      simp only [List.length_cons]
      omega
    | @unit a b c d body hx hbody =>
      rw [unescape.eq_def] at h
      simp only [if_true] at h
      split at h
      · cases h
      rename_i hlow
      split at h
      · rename_i hhigh
        split at h
        · rename_i x y a' b' c' d' body
          split at h
          · rename_i hpair
            obtain ⟨out', hout, rfl⟩ := Option.map_eq_some_iff.1 h
            simp only [Bool.and_eq_true, decide_eq_true_eq] at hhigh hpair
            obtain ⟨⟨⟨rfl, rfl⟩, hm⟩, hm'⟩ := hpair
            -- the other half is spelled by digits as well
            cases hbody with
            | byte _ hb => exact absurd rfl hb
            | letter he => exact absurd rfl (ne_letterU_of_isEscapeLetter he)
            | unit hx' hbody =>
              refine .pair hx hx' hhigh ⟨hm, hm'⟩ (ih _ ?_ hbody hout rfl)
              rw [← hn]
              simp only [List.length_cons]
              omega
          · cases h
        · cases h
      · rename_i hhigh
        obtain ⟨out', hout, rfl⟩ := Option.map_eq_some_iff.1 h
        simp only [Bool.and_eq_true, decide_eq_true_eq] at hlow hhigh
        refine .unit hx (by omega) (ih _ ?_ hbody hout rfl)
        rw [← hn]
        simp only [List.length_cons]
        omega

/-- **The text of a body** is what it stands for, if that is text. -/
theorem textOfBody_eq_some_iff {s : String} (hbody : Body body) :
    textOfBody body = some s ↔ ∃ out, Spells body out ∧ Utf8.decode? out = some s := by
  unfold textOfBody
  rw [Option.bind_eq_some_iff]
  refine exists_congr fun out => and_congr_left fun _ => ?_
  exact ⟨spells_of_unescape hbody, unescape_of_spells⟩

/-! ## What is written is spelled -/

/-- The letter of a short escape names the byte. -/
theorem letter_of_shortEscape {b e : UInt8} (h : shortEscape? b = some e) :
    isEscapeLetter e = true ∧ unescapeLetter e = b := by
  unfold shortEscape? at h
  repeat' split at h
  all_goals (cases h <;> subst_vars <;> decide)

theorem ne_of_shortEscape {b : UInt8} (h : shortEscape? b = none) : b ≠ quote ∧ b ≠ backslash := by
  constructor <;> (rintro rfl; exact absurd h (by decide))

/-- The two digits of a control character are its number. -/
theorem hex_of_control : ∀ n < 0x20, ∃ c d : UInt8,
    ((Hex.ofByte (UInt8.ofNat n)).map fun x => UInt8.ofNat x.toNat) = [c, d] ∧
      IsHex c ∧ IsHex d ∧ hex4 0x30 0x30 c d = n ∧ charBytes n = [UInt8.ofNat n] := by
  intro n hn
  refine ⟨UInt8.ofNat (Hex.digit (n / 16)).toNat, UInt8.ofNat (Hex.digit (n % 16)).toNat, ?_⟩
  unfold IsHex
  revert n
  decide +kernel

/-- **A byte that the writer writes**, followed by what is spelled. -/
theorem spells_escapeByte (b : UInt8) (h : Spells body out) :
    Spells (escapeByte b ++ body) (b :: out) := by
  unfold escapeByte
  cases hs : shortEscape? b with
  | some e =>
    obtain ⟨he, rfl⟩ := letter_of_shortEscape hs
    exact .letter he h
  | none =>
    obtain ⟨hq, hb⟩ := ne_of_shortEscape hs
    by_cases hc : b < 0x20
    · have hn : b.toNat < 0x20 := UInt8.lt_iff_toNat_lt.1 hc
      obtain ⟨c, d, hcd, hxc, hxd, hv, hbytes⟩ := hex_of_control b.toNat hn
      rw [UInt8.ofNat_toNat] at hcd hbytes
      have hx : ∀ x ∈ [0x30, 0x30, c, d], IsHex x := by
        simp only [List.forall_mem_cons, List.not_mem_nil, false_imp_iff, implies_true, and_true]
        exact ⟨rfl, rfl, hxc, hxd⟩
      have := Spells.unit hx (.inl (by omega)) h
      rw [hv, hbytes] at this
      simpa [hc, hcd] using this
    · rw [if_neg hc]
      exact .byte hq hb (UInt8.not_lt.1 hc) h

/-- **The writer spells every byte.** -/
theorem spells_escape (bs : List UInt8) : Spells (escape bs) bs := by
  induction bs with
  | nil => exact .nil
  | cons b bs ih => exact spells_escapeByte b ih

theorem readStringBody_escape (bs rest : List UInt8) :
    readStringBody .plain (escape bs ++ quote :: rest) = some (escape bs, rest) :=
  readStringBody_complete (body_of_spells (spells_escape bs)) rest

/-- **A text that was written comes back.** -/
theorem textOfBody_escape (s : String) : textOfBody (escape (Utf8.bytes s)) = some s := by
  unfold textOfBody
  rw [unescape_of_spells (spells_escape _)]
  exact Utf8.decode?_bytes s

/-! ## What is written is text -/

/-- The bytes are those of a text. -/
def IsText (bs : List UInt8) : Prop := ∃ s, Utf8.bytes s = bs

theorem IsText.append {bs cs : List UInt8} (hb : IsText bs) (hc : IsText cs) :
    IsText (bs ++ cs) := by
  obtain ⟨s, rfl⟩ := hb
  obtain ⟨t, rfl⟩ := hc
  exact ⟨s ++ t, Utf8.bytes_append s t⟩

theorem bytes_ofList (cs : List Char) :
    Utf8.bytes (String.ofList cs) = cs.flatMap String.utf8EncodeChar := by
  unfold Utf8.bytes
  rw [String.toByteArray_ofList, List.utf8Encode, List.toList_data_toByteArray]

/-- Bytes of ASCII are text. -/
theorem isText_of_ascii {bs : List UInt8} (h : ∀ b ∈ bs, b < 0x80) : IsText bs := by
  induction bs with
  | nil => exact ⟨"", rfl⟩
  | cons b bs ih =>
    obtain ⟨hb, hbs⟩ := List.forall_mem_cons.1 h
    have hone : ∀ n < 0x80, String.utf8EncodeChar (Char.ofNat n) = [UInt8.ofNat n] := by
      decide +kernel
    have hb : IsText [b] := by
      refine ⟨String.ofList [Char.ofNat b.toNat], ?_⟩
      rw [bytes_ofList, List.flatMap_singleton, hone _ (UInt8.lt_iff_toNat_lt.1 hb),
        UInt8.ofNat_toNat]
    exact hb.append (ih hbs)

theorem escape_append (bs cs : List UInt8) : escape (bs ++ cs) = escape bs ++ escape cs :=
  List.flatMap_append

/-- What is no ASCII is written as it is. -/
theorem escape_of_high {bs : List UInt8} (h : ∀ b ∈ bs, 0x80 ≤ b) : escape bs = bs := by
  have hone : ∀ n < 0x100, 0x80 ≤ UInt8.ofNat n → escapeByte (UInt8.ofNat n) = [UInt8.ofNat n] := by
    decide +kernel
  induction bs with
  | nil => rfl
  | cons b bs ih =>
    obtain ⟨hb, hbs⟩ := List.forall_mem_cons.1 h
    have := hone b.toNat b.toNat_lt
    rw [UInt8.ofNat_toNat] at this
    show escapeByte b ++ escape bs = b :: bs
    rw [this hb, ih hbs, List.singleton_append]

/-- Every byte of a character beyond ASCII is beyond ASCII. -/
theorem high_of_not_ascii {c : Char} (hc : ¬ c.val.toNat ≤ 127) :
    ∀ b ∈ String.utf8EncodeChar c, 0x80 ≤ b := by
  have high (n : Nat) (hl : 0x80 ≤ n) (hu : n < 0x100) : 0x80 ≤ UInt8.ofNat n := by
    rw [UInt8.le_iff_toNat_le, UInt8.toNat_ofNat_of_lt' hu]
    exact hl
  unfold String.utf8EncodeChar
  simp only [if_neg hc]
  repeat' split
  all_goals simp only [List.forall_mem_cons, List.not_mem_nil, false_imp_iff, implies_true, and_true]
  · exact ⟨high _ (by omega) (by omega), high _ (by omega) (by omega)⟩
  · exact ⟨high _ (by omega) (by omega), high _ (by omega) (by omega), high _ (by omega) (by omega)⟩
  · exact ⟨high _ (by omega) (by omega), high _ (by omega) (by omega), high _ (by omega) (by omega),
      high _ (by omega) (by omega)⟩

theorem isText_escape_char (c : Char) : IsText (escape (String.utf8EncodeChar c)) := by
  by_cases hc : c.val.toNat ≤ 127
  · -- an ASCII character is one byte, and is written in ASCII
    have hone : ∀ n < 0x80, (escape [UInt8.ofNat n]).all (· < 0x80) = true := by decide +kernel
    have hall := List.all_eq_true.1 (hone c.val.toNat (by omega))
    unfold String.utf8EncodeChar
    rw [if_pos hc]
    exact isText_of_ascii fun b hb => of_decide_eq_true (hall b hb)
  · rw [escape_of_high (high_of_not_ascii hc)]
    exact ⟨String.ofList [c], by rw [bytes_ofList, List.flatMap_singleton]⟩

/-- **The spelling of a text is text.** -/
theorem isText_escape (s : String) : IsText (escape (Utf8.bytes s)) := by
  rw [← String.ofList_toList (s := s), bytes_ofList]
  induction s.toList with
  | nil => exact ⟨"", rfl⟩
  | cons c cs ih =>
    rw [List.flatMap_cons, escape_append]
    exact (isText_escape_char c).append ih

end DownloadTriage.Json
