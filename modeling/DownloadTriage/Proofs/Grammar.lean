import DownloadTriage.Proofs.Quoting
import Mathlib.Data.List.TakeWhile

/-!
# The grammar of documents

What a JSON document is, apart from the reader: blanks, words, numbers, strings, lists and objects as
relations between bytes and what they stand for. A leaf that is well formed and stands for no value is
`unreadable`, here as in the reader.

* `readNumeral_sound`, `readNumeral_complete`: numbers.
* `readStringBody_eq_some_iff`: strings.
* `reader_sound`, `reader_complete`: values, items and members, with whatever follows them.
* `read_eq_some_iff`: the reader takes the documents of the grammar and nothing else.
* `parse?_eq_some_iff`: and the documents whose every value is asked for.
-/

namespace DownloadTriage.Json

/-! ## Blanks and words -/

/-- Nothing but blanks. -/
def Blanks (bs : List UInt8) : Prop := ∀ b ∈ bs, isSpace b = true

/-- No blank comes first. -/
def Inked (bs : List UInt8) : Prop := ∀ b ∈ bs.head?, isSpace b = false

variable {bs l m r rest : List UInt8}

theorem exists_skipBlanks (bs : List UInt8) : ∃ l, Blanks l ∧ bs = l ++ skipBlanks bs :=
  ⟨bs.takeWhile isSpace, fun _ hb => List.mem_takeWhile_imp hb,
    (List.takeWhile_append_dropWhile ..).symm⟩

theorem skipBlanks_append (hl : Blanks l) (hr : Inked r) : skipBlanks (l ++ r) = r := by
  unfold skipBlanks
  rw [List.dropWhile_append_of_pos hl]
  cases r with
  | nil => rfl
  | cons b r => exact List.dropWhile_cons_of_neg (by simp [hr b rfl])

theorem skipBlanks_of_blanks (h : Blanks l) : skipBlanks l = [] := by
  rw [← List.append_nil l, skipBlanks_append h (by rintro _ ⟨⟩)]

theorem expect_eq_some_iff {w : List UInt8} : expect w bs = some rest ↔ bs = w ++ rest := by
  induction w generalizing bs with
  | nil => simp [expect]
  | cons a w ih =>
    cases bs with
    | nil => simp [expect]
    | cons b bs =>
      rw [expect]
      by_cases hab : a = b
      · rw [if_pos hab, ih, hab, List.cons_append, List.cons_inj_right]
      · rw [if_neg hab]
        simp [Ne.symm hab]

/-! ## Numbers -/

/-- Nothing but digits. -/
def Digits (ds : List UInt8) : Prop := ∀ d ∈ ds, isDigit d = true

/-- The digits before the point: one at least, and no zero before others. -/
structure IsWhole (ds : List UInt8) : Prop where
  digits : Digits ds
  ne_nil : ds ≠ []
  zero : ds.head? = some 0x30 → ds = [0x30]

/-- The digits after the point, and the point, if there are any. -/
def pointed (ds : List UInt8) : List UInt8 := if ds = [] then [] else 0x2E :: ds

/-- An exponent as it is written, if it is. -/
inductive Exponent : List UInt8 → Option Int → Prop
  | none : Exponent [] none
  | bare {e : UInt8} {ds : List UInt8} (he : e = 0x65 ∨ e = 0x45) (hd : Digits ds) (hn : ds ≠ []) :
      Exponent (e :: ds) (some (digitsValue ds))
  | plus {e : UInt8} {ds : List UInt8} (he : e = 0x65 ∨ e = 0x45) (hd : Digits ds) (hn : ds ≠ []) :
      Exponent (e :: 0x2B :: ds) (some (digitsValue ds))
  | minus {e : UInt8} {ds : List UInt8} (he : e = 0x65 ∨ e = 0x45) (hd : Digits ds) (hn : ds ≠ []) :
      Exponent (e :: 0x2D :: ds) (some (-(digitsValue ds : Int)))

/-- **A number as it is written.** -/
structure Numeral.Spelled (n : Numeral) (bs : List UInt8) : Prop where
  whole : IsWhole n.whole
  fraction : Digits n.fraction
  spelling : ∃ es, Exponent es n.exponent ∧
    bs = (if n.negative then [0x2D] else []) ++ (n.whole ++ (pointed n.fraction ++ es))

/-- No digit comes first. -/
def Undigited (bs : List UInt8) : Prop := ∀ b ∈ bs.head?, isDigit b = false

theorem span_digits {ds : List UInt8} (hd : Digits ds) (hr : Undigited rest) :
    (ds ++ rest).takeWhile isDigit = ds ∧ (ds ++ rest).dropWhile isDigit = rest := by
  rw [List.takeWhile_append_of_pos hd, List.dropWhile_append_of_pos hd]
  cases rest with
  | nil => simp
  | cons b rest => simp [hr b rfl]

theorem readWhole_sound {ds : List UInt8} (h : readWhole bs = some (ds, rest)) :
    IsWhole ds ∧ bs = ds ++ rest := by
  have hall : ∀ d ∈ bs.takeWhile isDigit, isDigit d = true := fun _ hd => List.mem_takeWhile_imp hd
  have hsplit : bs = bs.takeWhile isDigit ++ bs.dropWhile isDigit :=
    (List.takeWhile_append_dropWhile ..).symm
  unfold readWhole at h
  split at h
  · cases h
  · rename_i d ds' hds
    split at h
    · cases h
    · rename_i hz
      cases h
      rw [hds] at hall
      refine ⟨⟨hall, List.cons_ne_nil _ _, ?_⟩, hds ▸ hsplit⟩
      rintro ⟨⟩
      simpa using hz

theorem readWhole_complete {ds : List UInt8} (hd : IsWhole ds) (hr : Undigited rest) :
    readWhole (ds ++ rest) = some (ds, rest) := by
  obtain ⟨htake, hdrop⟩ := span_digits hd.digits hr
  unfold readWhole
  rw [htake, hdrop]
  cases ds with
  | nil => exact absurd rfl hd.ne_nil
  | cons d ds =>
    have hz : ¬ (d = 0x30 && !ds.isEmpty) = true := by
      intro h
      rw [Bool.and_eq_true] at h
      obtain ⟨rfl, hne⟩ := And.intro (of_decide_eq_true h.1) h.2
      have := hd.zero rfl
      simp_all
    simp only [if_neg hz]

theorem readFraction_sound {ds : List UInt8} (h : readFraction bs = some (ds, rest)) :
    Digits ds ∧ bs = pointed ds ++ rest := by
  cases bs with
  | nil => cases h; exact ⟨fun d hd => absurd hd List.not_mem_nil, rfl⟩
  | cons b bs =>
    rw [readFraction] at h
    split at h
    · rename_i hb
      have hall : ∀ d ∈ bs.takeWhile isDigit, isDigit d = true := fun _ hd => List.mem_takeWhile_imp hd
      have hsplit : bs = bs.takeWhile isDigit ++ bs.dropWhile isDigit :=
        (List.takeWhile_append_dropWhile ..).symm
      split at h
      · cases h
      · rename_i hne
        cases h
        refine ⟨hall, ?_⟩
        rw [pointed, if_neg hne, hb, List.cons_append, ← hsplit]
    · cases h
      exact ⟨fun d hd => absurd hd List.not_mem_nil, rfl⟩

theorem readFraction_complete {ds : List UInt8} (hd : Digits ds) (hr : Undigited rest)
    (hp : rest.head? ≠ some 0x2E) : readFraction (pointed ds ++ rest) = some (ds, rest) := by
  unfold pointed
  by_cases hn : ds = []
  · rw [if_pos hn, hn, List.nil_append]
    cases rest with
    | nil => rfl
    | cons b rest =>
      have hb : b ≠ 0x2E := fun h => hp (congrArg some h)
      rw [readFraction, if_neg hb]
  · obtain ⟨htake, hdrop⟩ := span_digits hd hr
    rw [if_neg hn, List.cons_append, readFraction, if_pos rfl, htake, hdrop]
    cases ds with
    | nil => exact absurd rfl hn
    | cons d ds => rfl

/-- Whether an exponent is negative, and its digits. -/
def exponentSign : List UInt8 → Bool × List UInt8
  | [] => (false, [])
  | s :: bs =>
    if s = 0x2D then (true, bs) else if s = 0x2B then (false, bs) else (false, s :: bs)

theorem exponentSign_cases {negative : Bool} (h : exponentSign bs = (negative, rest)) :
    (bs = 0x2D :: rest ∧ negative = true) ∨ (bs = 0x2B :: rest ∧ negative = false) ∨
      (bs = rest ∧ negative = false) := by
  unfold exponentSign at h
  split at h
  · cases h
    exact .inr (.inr ⟨rfl, rfl⟩)
  · split at h
    · rename_i hs
      cases h
      exact .inl ⟨by rw [hs], rfl⟩
    · split at h
      · rename_i hs
        cases h
        exact .inr (.inl ⟨by rw [hs], rfl⟩)
      · cases h
        exact .inr (.inr ⟨rfl, rfl⟩)

theorem readExponent_cons (b : UInt8) (bs : List UInt8) : readExponent (b :: bs) =
    if b = 0x65 || b = 0x45 then
      match (exponentSign bs).2.takeWhile isDigit with
      | [] => none
      | ds => some (some (if (exponentSign bs).1 then -(digitsValue ds : Int) else digitsValue ds),
          (exponentSign bs).2.dropWhile isDigit)
    else some (none, b :: bs) := by
  cases bs <;> rfl

theorem readExponent_sound {e : Option Int} (h : readExponent bs = some (e, rest)) :
    ∃ es, Exponent es e ∧ bs = es ++ rest := by
  cases bs with
  | nil => cases h; exact ⟨[], .none, rfl⟩
  | cons b bs =>
    rw [readExponent_cons] at h
    split at h
    · rename_i hb
      have hb : b = 0x65 ∨ b = 0x45 := by simpa using hb
      generalize hs : exponentSign bs = s at h
      obtain ⟨negative, ds⟩ := s
      have hall : ∀ d ∈ ds.takeWhile isDigit, isDigit d = true := fun _ hd => List.mem_takeWhile_imp hd
      have hsplit : ds.takeWhile isDigit ++ ds.dropWhile isDigit = ds :=
        List.takeWhile_append_dropWhile ..
      split at h
      · cases h
      · rename_i hne
        cases h
        rcases exponentSign_cases hs with ⟨rfl, rfl⟩ | ⟨rfl, rfl⟩ | ⟨rfl, rfl⟩
        · exact ⟨_, .minus hb hall hne, by simp [hsplit]⟩
        · exact ⟨_, .plus hb hall hne, by simp [hsplit]⟩
        · exact ⟨_, .bare hb hall hne, by simp [hsplit]⟩
    · cases h
      exact ⟨[], .none, rfl⟩

/-- What may follow a number: nothing that would go on with it. -/
structure Stops (bs : List UInt8) : Prop where
  digit : Undigited bs
  point : bs.head? ≠ some 0x2E
  exponent : bs.head? ≠ some 0x65 ∧ bs.head? ≠ some 0x45

theorem readExponent_signed {b : UInt8} {ds : List UInt8} {negative : Bool}
    (hb : b = 0x65 ∨ b = 0x45) (hs : exponentSign bs = (negative, ds ++ rest)) (hd : Digits ds)
    (hn : ds ≠ []) (hr : Undigited rest) : readExponent (b :: bs) =
      some (some (if negative then -(digitsValue ds : Int) else digitsValue ds), rest) := by
  obtain ⟨htake, hdrop⟩ := span_digits hd hr
  rw [readExponent_cons, if_pos (by simpa using hb), hs]
  dsimp only
  rw [htake, hdrop]
  cases ds with
  | nil => exact absurd rfl hn
  | cons d ds => rfl

theorem readExponent_complete {e : Option Int} {es : List UInt8} (h : Exponent es e)
    (hr : Stops rest) : readExponent (es ++ rest) = some (e, rest) := by
  cases h with
  | none =>
    cases rest with
    | nil => rfl
    | cons b rest =>
      have hb : ¬ (b = 0x65 || b = 0x45) = true := by
        have := hr.exponent
        simpa using this
      rw [List.nil_append, readExponent_cons, if_neg hb]
  | @bare b ds hb hd hn =>
    have hsign : exponentSign (ds ++ rest) = (false, ds ++ rest) := by
      -- a digit is no sign
      cases ds with
      | nil => exact absurd rfl hn
      | cons d ds =>
        have hd := hd d (List.mem_cons_self ..)
        rw [List.cons_append, exponentSign, if_neg, if_neg] <;> (rintro rfl; cases hd)
    exact readExponent_signed hb hsign hd hn hr.digit
  | @plus b ds hb hd hn =>
    have hsign : exponentSign (0x2B :: (ds ++ rest)) = (false, ds ++ rest) := rfl
    exact readExponent_signed hb hsign hd hn hr.digit
  | @minus b ds hb hd hn =>
    have hsign : exponentSign (0x2D :: (ds ++ rest)) = (true, ds ++ rest) := rfl
    exact readExponent_signed hb hsign hd hn hr.digit

/-- Whether a number is negative, and what follows its sign. -/
def numeralSign : List UInt8 → Bool × List UInt8
  | [] => (false, [])
  | b :: bs => if b = 0x2D then (true, bs) else (false, b :: bs)

theorem readNumeral_eq (bs : List UInt8) : readNumeral bs =
    (readWhole (numeralSign bs).2).bind fun (whole, bs₁) =>
      (readFraction bs₁).bind fun (fraction, bs₂) =>
        (readExponent bs₂).map fun (exponent, rest) =>
          (⟨(numeralSign bs).1, whole, fraction, exponent⟩, rest) := by
  cases bs with
  | nil => rfl
  | cons b bs =>
    unfold readNumeral
    simp only [Option.bind_eq_bind, Option.map_eq_bind]
    rfl

theorem readNumeral_sound {n : Numeral} (h : readNumeral bs = some (n, rest)) :
    ∃ m, n.Spelled m ∧ bs = m ++ rest := by
  rw [readNumeral_eq] at h
  obtain ⟨⟨whole, bs₁⟩, hw, h⟩ := Option.bind_eq_some_iff.1 h
  obtain ⟨⟨fraction, bs₂⟩, hf, h⟩ := Option.bind_eq_some_iff.1 h
  obtain ⟨⟨exponent, bs₃⟩, he, h⟩ := Option.map_eq_some_iff.1 h
  cases h
  obtain ⟨hwhole, hbs⟩ := readWhole_sound hw
  obtain ⟨hfraction, rfl⟩ := readFraction_sound hf
  obtain ⟨es, hes, rfl⟩ := readExponent_sound he
  refine ⟨_, ⟨hwhole, hfraction, es, hes, rfl⟩, ?_⟩
  have hsign : bs = (if (numeralSign bs).1 then [0x2D] else []) ++ (numeralSign bs).2 := by
    cases bs with
    | nil => rfl
    | cons b bs =>
      by_cases hb : b = 0x2D <;> simp [numeralSign, hb]
  simpa [hbs] using hsign

theorem undigited_exponent {e : Option Int} {es : List UInt8} (h : Exponent es e) (hr : Stops rest) :
    Undigited (es ++ rest) ∧ (es ++ rest).head? ≠ some 0x2E := by
  have he {b : UInt8} (hb : b = 0x65 ∨ b = 0x45) (bs : List UInt8) :
      Undigited (b :: bs) ∧ (b :: bs).head? ≠ some 0x2E := by
    rcases hb with rfl | rfl
    · exact ⟨by rintro _ ⟨⟩; rfl, by simp⟩
    · exact ⟨by rintro _ ⟨⟩; rfl, by simp⟩
  cases h with
  | none => exact ⟨hr.digit, hr.point⟩
  | bare hb | plus hb | minus hb => exact he hb _

theorem undigited_pointed {ds : List UInt8} (hr : Undigited rest) : Undigited (pointed ds ++ rest) := by
  unfold pointed
  split
  · exact hr
  · rintro _ ⟨⟩
    rfl

theorem readNumeral_complete {n : Numeral} (h : n.Spelled m) (hr : Stops rest) :
    readNumeral (m ++ rest) = some (n, rest) := by
  obtain ⟨hwhole, hfraction, es, hes, rfl⟩ := h
  obtain ⟨hdigit, hpoint⟩ := undigited_exponent hes hr
  have hsign : numeralSign (((if n.negative then [0x2D] else []) ++
      (n.whole ++ (pointed n.fraction ++ es))) ++ rest) =
        (n.negative, n.whole ++ (pointed n.fraction ++ (es ++ rest))) := by
    cases n.negative with
    | true => simp [numeralSign]
    | false =>
      cases hw : n.whole with
      | nil => exact absurd hw hwhole.ne_nil
      | cons d ds =>
        have hd : isDigit d = true := hwhole.digits d (hw ▸ List.mem_cons_self ..)
        have hne : d ≠ 0x2D := by rintro rfl; cases hd
        simp [numeralSign, hne]
  rw [readNumeral_eq, hsign, readWhole_complete hwhole (undigited_pointed hdigit)]
  dsimp only [Option.bind_some]
  rw [readFraction_complete hfraction hdigit hpoint]
  dsimp only [Option.bind_some]
  rw [readExponent_complete hes hr]
  rfl

/-! ## Values -/

mutual

/-- **A value as it is written**, without blanks around it. -/
inductive Written : List UInt8 → Json → Prop
  | null : Written (Utf8.bytes "null") null
  | yes : Written (Utf8.bytes "true") (bool true)
  | no : Written (Utf8.bytes "false") (bool false)
  | number {m : List UInt8} {n : Numeral} (h : n.Spelled m) :
      Written m ((n.number?.map num).getD unreadable)
  | string {body : List UInt8} (h : Body body) :
      Written (quote :: (body ++ [quote])) (((textOfBody body).map str).getD unreadable)
  | noItems {l : List UInt8} (hl : Blanks l) :
      Written (openBracket :: (l ++ [closeBracket])) (arr [])
  | items {l m : List UInt8} {vs : List Json} (hl : Blanks l) (h : WrittenItems m vs) :
      Written (openBracket :: (l ++ (m ++ [closeBracket]))) (arr vs)
  | noMembers {l : List UInt8} (hl : Blanks l) : Written (openBrace :: (l ++ [closeBrace])) (obj [])
  | members {l m : List UInt8} {ms : List (Option String × Json)} (hl : Blanks l)
      (h : WrittenMembers m ms) : Written (openBrace :: (l ++ (m ++ [closeBrace]))) (ofMembers ms)

/-- The items of a list, from the first one to the blanks after the last one. -/
inductive WrittenItems : List UInt8 → List Json → Prop
  | last {m r : List UInt8} {v : Json} (h : Written m v) (hr : Blanks r) : WrittenItems (m ++ r) [v]
  | more {m r l ms : List UInt8} {v : Json} {vs : List Json} (h : Written m v) (hr : Blanks r)
      (hl : Blanks l) (hs : WrittenItems ms vs) :
      WrittenItems (m ++ (r ++ comma :: (l ++ ms))) (v :: vs)

/-- The members of an object, from the name of the first one to the blanks after the last one. -/
inductive WrittenMembers : List UInt8 → List (Option String × Json) → Prop
  | last {name a b m r : List UInt8} {v : Json} (hn : Body name) (ha : Blanks a) (hb : Blanks b)
      (h : Written m v) (hr : Blanks r) :
      WrittenMembers (quote :: (name ++ quote :: (a ++ colon :: (b ++ (m ++ r)))))
        [(textOfBody name, v)]
  | more {name a b m r l ms : List UInt8} {v : Json} {vs : List (Option String × Json)}
      (hn : Body name) (ha : Blanks a) (hb : Blanks b) (h : Written m v) (hr : Blanks r)
      (hl : Blanks l) (hs : WrittenMembers ms vs) :
      WrittenMembers
        (quote :: (name ++ quote :: (a ++ colon :: (b ++ (m ++ (r ++ comma :: (l ++ ms)))))))
        ((textOfBody name, v) :: vs)

end

/-! ## The reader is sound -/

/-- What a reader takes is as said, and comes first. -/
def Sound {α : Type} (read : List UInt8 → Option (α × List UInt8)) (P : List UInt8 → α → Prop)
    (close : List UInt8) : Prop :=
  ∀ bs a rest, read bs = some (a, rest) → ∃ m, P m a ∧ bs = m ++ (close ++ rest)

theorem readItems_step_sound {fuel : Nat} (hv : Sound (readValue fuel) Written [])
    (hi : Sound (readItems fuel) WrittenItems [closeBracket]) :
    Sound (readItems (fuel + 1)) WrittenItems [closeBracket] := by
  intro bs vs rest h
  rw [readItems] at h
  obtain ⟨⟨v, rest₁⟩, hread, h₁⟩ := Option.bind_eq_some_iff.1 h
  obtain ⟨m, hm, rfl⟩ := hv _ _ _ hread
  obtain ⟨r, hr, hskip⟩ := exists_skipBlanks rest₁
  dsimp only at h₁
  split at h₁
  · cases h₁
  · rename_i c rest₂ hc
    rw [hc] at hskip
    split at h₁
    · rename_i hclose
      cases h₁
      exact ⟨m ++ r, .last hm hr, by rw [hskip, hclose]; simp⟩
    split at h₁
    · rename_i hcomma
      obtain ⟨⟨vs', rest₃⟩, hread', h₂⟩ := Option.bind_eq_some_iff.1 h₁
      cases h₂
      obtain ⟨ms, hms, hrest⟩ := hi _ _ _ hread'
      obtain ⟨l, hl, hskip'⟩ := exists_skipBlanks rest₂
      refine ⟨_, .more hm hr hl hms, ?_⟩
      rw [hskip, hcomma, hskip', hrest]
      simp
    · cases h₁

theorem readMembers_cons (fuel : Nat) (b : UInt8) (bs : List UInt8) :
    readMembers (fuel + 1) (b :: bs) =
      if b = quote then
        (readStringBody .plain bs).bind fun (name, rest) =>
          match skipBlanks rest with
          | [] => none
          | c :: rest =>
            if c = colon then
              (readValue fuel (skipBlanks rest)).bind fun (v, rest) =>
                match skipBlanks rest with
                | [] => none
                | c :: rest =>
                  if c = closeBrace then some ([(textOfBody name, v)], rest)
                  else if c = comma then
                    (readMembers fuel (skipBlanks rest)).map fun (ms, rest) =>
                      ((textOfBody name, v) :: ms, rest)
                  else none
            else none
      else none := by
  rw [readMembers]
  by_cases hb : b = quote
  · simp only [hb, ne_eq, not_true, if_false, if_true, Option.bind_eq_bind]
    refine congrArg _ (funext fun x => ?_)
    obtain ⟨name, rest⟩ := x
    dsimp only
    cases skipBlanks rest with
    | nil => rfl
    | cons c rest =>
      by_cases hc : c = colon
      · simp only [hc, not_true, if_false, if_true]
        refine congrArg _ (funext fun x => ?_)
        obtain ⟨v, rest⟩ := x
        dsimp only
        cases skipBlanks rest with
        | nil => rfl
        | cons c rest =>
          dsimp only
          split
          · rfl
          split
          · exact (Option.map_eq_bind ..).symm
          · rfl
      · simp [hc]
  · simp [hb]

theorem readMembers_step_sound {fuel : Nat} (hv : Sound (readValue fuel) Written [])
    (hi : Sound (readMembers fuel) WrittenMembers [closeBrace]) :
    Sound (readMembers (fuel + 1)) WrittenMembers [closeBrace] := by
  intro bs ms rest h
  cases bs with
  | nil => cases h
  | cons q bs =>
    rw [readMembers_cons] at h
    split at h
    case isFalse => cases h
    rename_i hq
    obtain ⟨⟨name, rest₁⟩, hread, h₁⟩ := Option.bind_eq_some_iff.1 h
    obtain ⟨hname, hbs⟩ := readStringBody_sound hread
    obtain ⟨a, ha, hskip₁⟩ := exists_skipBlanks rest₁
    dsimp only at h₁
    split at h₁
    · cases h₁
    rename_i c rest₂ hc
    split at h₁
    case isFalse => cases h₁
    rename_i hcolon
    obtain ⟨⟨v, rest₃⟩, hvalue, h₂⟩ := Option.bind_eq_some_iff.1 h₁
    obtain ⟨m, hm, hrest₂⟩ := hv _ _ _ hvalue
    obtain ⟨b, hb, hskip₂⟩ := exists_skipBlanks rest₂
    obtain ⟨r, hr, hskip₃⟩ := exists_skipBlanks rest₃
    dsimp only at h₂
    split at h₂
    · cases h₂
    rename_i d rest₄ hd
    rw [hc, hcolon, hskip₂, hrest₂] at hskip₁
    split at h₂
    · rename_i hclose
      cases h₂
      refine ⟨_, .last hname ha hb hm hr, ?_⟩
      rw [hq, hbs, hskip₁, hskip₃, hd, hclose]
      simp
    split at h₂
    · rename_i hcomma
      obtain ⟨⟨ms', rest₅⟩, hread', h₃⟩ := Option.map_eq_some_iff.1 h₂
      cases h₃
      obtain ⟨ms, hms, hrest⟩ := hi _ _ _ hread'
      obtain ⟨l, hl, hskip₄⟩ := exists_skipBlanks rest₄
      refine ⟨_, .more hname ha hb hm hr hl hms, ?_⟩
      rw [hq, hbs, hskip₁, hskip₃, hd, hcomma, hskip₄, hrest]
      simp
    · cases h₂

theorem readValue_step_sound {fuel : Nat}
    (hi : Sound (readItems fuel) WrittenItems [closeBracket])
    (hm : Sound (readMembers fuel) WrittenMembers [closeBrace]) :
    Sound (readValue (fuel + 1)) Written [] := by
  intro bs v rest h
  cases bs with
  | nil => cases h
  | cons b bs =>
    obtain ⟨l, hl, hskip⟩ := exists_skipBlanks bs
    rw [readValue] at h
    split at h
    · rename_i hb
      obtain ⟨⟨body, rest₁⟩, hread, h₁⟩ := Option.map_eq_some_iff.1 h
      cases h₁
      obtain ⟨hbody, rfl⟩ := readStringBody_sound hread
      exact ⟨_, .string hbody, by rw [hb]; simp⟩
    split at h
    · rename_i hb
      split at h
      · cases h
      rename_i c rest₁ hc
      rw [hc] at hskip
      split at h
      · rename_i hclose
        cases h
        exact ⟨_, .noItems hl, by rw [hb, hskip, hclose]; simp⟩
      · obtain ⟨⟨vs, rest₂⟩, hread, h₁⟩ := Option.map_eq_some_iff.1 h
        cases h₁
        obtain ⟨m, hm, hrest⟩ := hi _ _ _ hread
        exact ⟨_, .items hl hm, by rw [hb, hskip, hrest]; simp⟩
    split at h
    · rename_i hb
      split at h
      · cases h
      rename_i c rest₁ hc
      rw [hc] at hskip
      split at h
      · rename_i hclose
        cases h
        exact ⟨_, .noMembers hl, by rw [hb, hskip, hclose]; simp⟩
      · obtain ⟨⟨vs, rest₂⟩, hread, h₁⟩ := Option.map_eq_some_iff.1 h
        cases h₁
        obtain ⟨m, hm, hrest⟩ := hm _ _ _ hread
        exact ⟨_, .members hl hm, by rw [hb, hskip, hrest]; simp⟩
    split at h
    · rename_i hb
      obtain ⟨rest₁, hread, h₁⟩ := Option.map_eq_some_iff.1 h
      cases h₁
      rw [hb, expect_eq_some_iff.1 hread]
      exact ⟨_, .null, rfl⟩
    split at h
    · rename_i hb
      obtain ⟨rest₁, hread, h₁⟩ := Option.map_eq_some_iff.1 h
      cases h₁
      rw [hb, expect_eq_some_iff.1 hread]
      exact ⟨_, .yes, rfl⟩
    split at h
    · rename_i hb
      obtain ⟨rest₁, hread, h₁⟩ := Option.map_eq_some_iff.1 h
      cases h₁
      rw [hb, expect_eq_some_iff.1 hread]
      exact ⟨_, .no, rfl⟩
    · obtain ⟨⟨n, rest₁⟩, hread, h₁⟩ := Option.map_eq_some_iff.1 h
      cases h₁
      obtain ⟨m, hm, hbs⟩ := readNumeral_sound hread
      exact ⟨m, .number hm, hbs⟩

/-- Whatever the reader takes is written. -/
theorem reader_sound (fuel : Nat) : Sound (readValue fuel) Written [] ∧
    Sound (readItems fuel) WrittenItems [closeBracket] ∧
      Sound (readMembers fuel) WrittenMembers [closeBrace] := by
  induction fuel with
  | zero =>
    refine ⟨?_, ?_, ?_⟩
    all_goals
      intro bs a rest h
      cases h
  | succ fuel ih =>
    obtain ⟨hv, hi, hm⟩ := ih
    exact ⟨readValue_step_sound hi hm, readItems_step_sound hv hi, readMembers_step_sound hv hm⟩

/-! ## The reader is complete -/

/-- What may follow a value: a blank, a comma or an end. -/
def Marked (bs : List UInt8) : Prop :=
  ∀ b ∈ bs.head?, isSpace b = true ∨ b ∈ [comma, closeBracket, closeBrace]

theorem not_digit_of_mark {b : UInt8}
    (h : isSpace b = true ∨ b ∈ [comma, closeBracket, closeBrace]) : isDigit b = false := by
  have hb : b ∈ [0x20, 0x09, 0x0A, 0x0D, comma, closeBracket, closeBrace] := by
    simpa [isSpace, or_assoc] using h
  have hall : [0x20, 0x09, 0x0A, 0x0D, comma, closeBracket, closeBrace].all (!isDigit ·) = true := by
    decide
  simpa using List.all_eq_true.1 hall b hb

theorem Marked.stops (h : Marked bs) : Stops bs := by
  have hhead (c : UInt8) (hc : ¬ (isSpace c = true ∨ c ∈ [comma, closeBracket, closeBrace])) :
      bs.head? ≠ some c := fun he => hc (h c he)
  exact ⟨fun b hb => not_digit_of_mark (h b hb), hhead _ (by decide), hhead _ (by decide),
    hhead _ (by decide)⟩

theorem marked_blanks (hr : Blanks r) (h : Marked bs) : Marked (r ++ bs) := by
  cases r with
  | nil => exact h
  | cons b r => rintro _ ⟨⟩; exact .inl (hr b (List.mem_cons_self ..))

theorem marked_cons {b : UInt8} (hb : b ∈ [comma, closeBracket, closeBrace]) : Marked (b :: bs) := by
  rintro _ ⟨⟩
  exact .inr hb

theorem marked_of_blanks (hr : Blanks r) : Marked r := by
  rw [← List.append_nil r]
  exact marked_blanks hr (by rintro _ ⟨⟩)

/-- A number starts with its sign or a digit. -/
theorem Numeral.Spelled.first {n : Numeral} (h : n.Spelled m) :
    ∃ b m', m = b :: m' ∧ (b = 0x2D ∨ isDigit b = true) := by
  obtain ⟨hwhole, -, es, -, rfl⟩ := h
  cases n.negative with
  | true => exact ⟨0x2D, _, rfl, .inl rfl⟩
  | false =>
    cases hw : n.whole with
    | nil => exact absurd hw hwhole.ne_nil
    | cons d ds => exact ⟨d, _, rfl, .inr (hwhole.digits d (hw ▸ List.mem_cons_self ..))⟩

/-- The reader of values goes to the number where one starts. -/
theorem readValue_number {b : UInt8} (hb : b = 0x2D ∨ isDigit b = true) (fuel : Nat)
    (bs : List UInt8) : readValue (fuel + 1) (b :: bs) = (readNumeral (b :: bs)).map fun (n, rest) =>
      ((n.number?.map num).getD unreadable, rest) := by
  have hne (c : UInt8) (hc : ¬ (c = 0x2D ∨ isDigit c = true)) : b ≠ c := by
    rintro rfl
    exact hc hb
  rw [readValue, if_neg (hne _ (by decide)), if_neg (hne _ (by decide)), if_neg (hne _ (by decide)),
    if_neg (hne _ (by decide)), if_neg (hne _ (by decide)), if_neg (hne _ (by decide))]

/-- A value starts with no blank and no end. -/
theorem Written.first {v : Json} (h : Written m v) : ∃ b m', m = b :: m' ∧
    isSpace b = false ∧ b ≠ closeBracket ∧ b ≠ closeBrace := by
  cases h with
  | null => exact ⟨0x6E, _, rfl, rfl, by decide, by decide⟩
  | yes => exact ⟨0x74, _, rfl, rfl, by decide, by decide⟩
  | no => exact ⟨0x66, _, rfl, rfl, by decide, by decide⟩
  | number h =>
    obtain ⟨b, m', rfl, hb⟩ := h.first
    have hmark (hb' : isSpace b = true ∨ b ∈ [comma, closeBracket, closeBrace]) : False := by
      have hdigit := not_digit_of_mark hb'
      rcases hb with rfl | hb
      · revert hb'
        decide
      · exact Bool.false_ne_true (hdigit.symm.trans hb)
    exact ⟨b, m', rfl, Bool.eq_false_iff.2 fun h => hmark (.inl h),
      fun h => hmark (.inr (by simp [h])), fun h => hmark (.inr (by simp [h]))⟩
  | string h => exact ⟨quote, _, rfl, rfl, by decide, by decide⟩
  | noItems hl => exact ⟨openBracket, _, rfl, rfl, by decide, by decide⟩
  | items hl h => exact ⟨openBracket, _, rfl, rfl, by decide, by decide⟩
  | noMembers hl => exact ⟨openBrace, _, rfl, rfl, by decide, by decide⟩
  | members hl h => exact ⟨openBrace, _, rfl, rfl, by decide, by decide⟩

theorem Written.inked {v : Json} (h : Written m v) : Inked (m ++ rest) := by
  obtain ⟨b, m', rfl, hb, -⟩ := h.first
  rintro _ ⟨⟩
  exact hb

theorem Written.length_pos {v : Json} (h : Written m v) : 0 < m.length := by
  obtain ⟨b, m', rfl, -⟩ := h.first
  exact Nat.succ_pos _

/-- The items start where the first one does. -/
theorem WrittenItems.first {vs : List Json} (h : WrittenItems m vs) : ∃ b m', m = b :: m' ∧
    isSpace b = false ∧ b ≠ closeBracket := by
  cases h with
  | last h hr | more h hr hl hs =>
    obtain ⟨b, m', rfl, hb, hc, -⟩ := h.first
    exact ⟨b, _, rfl, hb, hc⟩

theorem WrittenItems.inked {vs : List Json} (h : WrittenItems m vs) : Inked (m ++ rest) := by
  obtain ⟨b, m', rfl, hb, -⟩ := h.first
  rintro _ ⟨⟩
  exact hb

/-- The members start with the quote of the first name. -/
theorem WrittenMembers.first {ms : List (Option String × Json)} (h : WrittenMembers m ms) :
    ∃ m', m = quote :: m' := by
  cases h with
  | last | more => exact ⟨_, rfl⟩

theorem WrittenMembers.inked {ms : List (Option String × Json)} (h : WrittenMembers m ms) :
    Inked (m ++ rest) := by
  obtain ⟨m', rfl⟩ := h.first
  rintro _ ⟨⟩
  rfl

/-- What is written as said is taken, whatever may follow, given steps enough. -/
def Complete {α : Type} (read : Nat → List UInt8 → Option (α × List UInt8))
    (P : List UInt8 → α → Prop) (close : List UInt8) (fuel : Nat) : Prop :=
  ∀ m a rest, P m a → 2 * m.length + close.length ≤ fuel → Marked (close ++ rest) →
    read fuel (m ++ (close ++ rest)) = some (a, rest)

theorem inked_cons {b : UInt8} (hb : isSpace b = false) : Inked (b :: bs) := by
  rintro _ ⟨⟩
  exact hb

theorem Complete.value {fuel : Nat} {v : Json} (hv : Complete readValue Written [] fuel)
    (h : Written m v) (hfuel : 2 * m.length ≤ fuel) (hr : Marked rest) :
    readValue fuel (m ++ rest) = some (v, rest) := hv m v rest h hfuel hr

/-- The first item is read, and what stands after it says how to go on. -/
theorem readItems_first {fuel : Nat} {v : Json} {c : UInt8} (hv : Complete readValue Written [] fuel)
    (h : Written m v) (hfuel : 2 * m.length ≤ fuel) (hr : Blanks r) (hc : c = comma ∨ c = closeBracket) :
    readItems (fuel + 1) (m ++ (r ++ c :: rest)) =
      if c = closeBracket then some ([v], rest)
      else if c = comma then
        (readItems fuel (skipBlanks rest)).map fun (vs, rest) => (v :: vs, rest)
      else none := by
  have hmark : Marked (c :: rest) := marked_cons (by rcases hc with rfl | rfl <;> decide)
  have hspace : isSpace c = false := by rcases hc with rfl | rfl <;> rfl
  rw [readItems, hv.value h hfuel (marked_blanks hr hmark)]
  dsimp only [Option.bind_eq_bind, Option.bind_some]
  rw [skipBlanks_append hr (inked_cons hspace), Option.map_eq_bind]
  rfl

theorem readItems_step_complete {fuel : Nat} (hv : Complete readValue Written [] fuel)
    (hi : Complete readItems WrittenItems [closeBracket] fuel) :
    Complete readItems WrittenItems [closeBracket] (fuel + 1) := by
  intro m vs rest h hfuel hmark
  cases h with
  | last h hr =>
    rw [List.append_assoc]
    exact readItems_first hv h (by simp at hfuel; omega) hr (.inr rfl)
  | @more m r l ms v vs h hr hl hs =>
    have hpos := h.length_pos
    have hitems : readItems fuel (ms ++ closeBracket :: rest) = some (vs, rest) :=
      hi ms vs rest hs (by simp at hfuel ⊢; omega) hmark
    simp only [List.append_assoc, List.cons_append, List.nil_append]
    rw [readItems_first hv h (by simp at hfuel; omega) hr (.inl rfl), if_neg (by decide), if_pos rfl,
      skipBlanks_append hl hs.inked, hitems]
    rfl

/-- The first member is read, and what stands after it says how to go on. -/
theorem readMembers_first {fuel : Nat} {name a b : List UInt8} {v : Json} {c : UInt8}
    (hv : Complete readValue Written [] fuel) (hn : Body name) (ha : Blanks a) (hb : Blanks b)
    (h : Written m v) (hfuel : 2 * m.length ≤ fuel) (hr : Blanks r) (hc : c = comma ∨ c = closeBrace) :
    readMembers (fuel + 1) (quote :: (name ++ quote :: (a ++ colon :: (b ++ (m ++ (r ++ c :: rest)))))) =
      if c = closeBrace then some ([(textOfBody name, v)], rest)
      else if c = comma then
        (readMembers fuel (skipBlanks rest)).map fun (ms, rest) => ((textOfBody name, v) :: ms, rest)
      else none := by
  have hmark : Marked (c :: rest) := marked_cons (by rcases hc with rfl | rfl <;> decide)
  have hspace : isSpace c = false := by rcases hc with rfl | rfl <;> rfl
  rw [readMembers_cons, if_pos rfl, readStringBody_complete hn]
  dsimp only [Option.bind_some]
  rw [skipBlanks_append ha (inked_cons rfl)]
  dsimp only
  rw [if_pos rfl, skipBlanks_append hb h.inked, hv.value h hfuel (marked_blanks hr hmark)]
  dsimp only [Option.bind_some]
  rw [skipBlanks_append hr (inked_cons hspace)]

theorem readMembers_step_complete {fuel : Nat} (hv : Complete readValue Written [] fuel)
    (hi : Complete readMembers WrittenMembers [closeBrace] fuel) :
    Complete readMembers WrittenMembers [closeBrace] (fuel + 1) := by
  intro m ms rest h hfuel hmark
  cases h with
  | last hn ha hb h hr =>
    simp only [List.append_assoc, List.cons_append, List.nil_append]
    exact readMembers_first hv hn ha hb h (by simp at hfuel; omega) hr (.inr rfl)
  | @more name a b m r l ms v vs hn ha hb h hr hl hs =>
    have hmembers : readMembers fuel (ms ++ closeBrace :: rest) = some (vs, rest) :=
      hi ms vs rest hs (by simp at hfuel ⊢; omega) hmark
    simp only [List.append_assoc, List.cons_append, List.nil_append]
    rw [readMembers_first hv hn ha hb h (by simp at hfuel; omega) hr (.inl rfl),
      if_neg (by decide), if_pos rfl, skipBlanks_append hl hs.inked, hmembers]
    rfl

theorem readValue_step_complete {fuel : Nat}
    (hi : Complete readItems WrittenItems [closeBracket] fuel)
    (hm : Complete readMembers WrittenMembers [closeBrace] fuel) :
    Complete readValue Written [] (fuel + 1) := by
  intro m v rest h hfuel hmark
  rw [List.nil_append] at hmark ⊢
  cases h with
  | null =>
    have hword : expect [0x75, 0x6C, 0x6C] ([0x75, 0x6C, 0x6C] ++ rest) = some rest :=
      expect_eq_some_iff.2 rfl
    show (expect [0x75, 0x6C, 0x6C] ([0x75, 0x6C, 0x6C] ++ rest)).map (Json.null, ·) = _
    rw [hword, Option.map_some]
  | yes =>
    have hword : expect [0x72, 0x75, 0x65] ([0x72, 0x75, 0x65] ++ rest) = some rest :=
      expect_eq_some_iff.2 rfl
    show (expect [0x72, 0x75, 0x65] ([0x72, 0x75, 0x65] ++ rest)).map (bool true, ·) = _
    rw [hword, Option.map_some]
  | no =>
    have hword : expect [0x61, 0x6C, 0x73, 0x65] ([0x61, 0x6C, 0x73, 0x65] ++ rest) = some rest :=
      expect_eq_some_iff.2 rfl
    show (expect [0x61, 0x6C, 0x73, 0x65] ([0x61, 0x6C, 0x73, 0x65] ++ rest)).map
      (bool false, ·) = _
    rw [hword, Option.map_some]
  | number h =>
    obtain ⟨b, m', rfl, hb⟩ := h.first
    have hread := readNumeral_complete h hmark.stops
    rw [List.cons_append] at hread ⊢
    rw [readValue_number hb, hread]
    rfl
  | @string body h =>
    have hread := readStringBody_complete h rest
    simp only [List.append_assoc, List.cons_append, List.nil_append]
    rw [readValue, if_pos rfl, hread]
    rfl
  | @noItems l hl =>
    simp only [List.append_assoc, List.cons_append, List.nil_append]
    rw [readValue, if_neg (by decide), if_pos rfl, skipBlanks_append hl (inked_cons rfl)]
    rfl
  | @items l m vs hl h =>
    obtain ⟨b, m', rfl, hb, hne⟩ := h.first
    have hread := hi _ vs rest h (by simp at hfuel ⊢; omega) (marked_cons (by decide))
    simp only [List.append_assoc, List.cons_append, List.nil_append] at hread ⊢
    rw [readValue, if_neg (by decide), if_pos rfl, skipBlanks_append hl (inked_cons hb)]
    dsimp only
    rw [if_neg hne, hread]
    rfl
  | @noMembers l hl =>
    simp only [List.append_assoc, List.cons_append, List.nil_append]
    rw [readValue, if_neg (by decide), if_neg (by decide), if_pos rfl,
      skipBlanks_append hl (inked_cons rfl)]
    rfl
  | @members l m ms hl h =>
    obtain ⟨m', rfl⟩ := h.first
    have hread := hm _ ms rest h (by simp at hfuel ⊢; omega) (marked_cons (by decide))
    simp only [List.append_assoc, List.cons_append, List.nil_append] at hread ⊢
    rw [readValue, if_neg (by decide), if_neg (by decide), if_pos rfl,
      skipBlanks_append hl (inked_cons rfl)]
    dsimp only
    rw [if_neg (by decide), hread]
    rfl

/-- Whatever is written is taken. -/
theorem reader_complete (fuel : Nat) : Complete readValue Written [] fuel ∧
    Complete readItems WrittenItems [closeBracket] fuel ∧
      Complete readMembers WrittenMembers [closeBrace] fuel := by
  induction fuel with
  | zero =>
    refine ⟨fun m v rest h hfuel => ?_, fun m vs rest h hfuel => ?_, fun m ms rest h hfuel => ?_⟩
    · have hpos := h.length_pos
      omega
    · simp at hfuel
    · simp at hfuel
  | succ fuel ih =>
    obtain ⟨hv, hi, hm⟩ := ih
    exact ⟨readValue_step_complete hi hm, readItems_step_complete hv hi,
      readMembers_step_complete hv hm⟩

/-! ## Documents -/

/-- **The reader takes the documents of the grammar and nothing else.** -/
theorem read_eq_some_iff {v : Json} : read bs = some v ↔
    ∃ l m r, bs = l ++ (m ++ r) ∧ Blanks l ∧ Written m v ∧ Blanks r := by
  constructor
  · intro h
    unfold read at h
    split at h
    case h_2 => cases h
    rename_i w rest hread
    split at h
    case isFalse => cases h
    rename_i hend
    cases h
    obtain ⟨l, hl, hbs⟩ := exists_skipBlanks bs
    obtain ⟨m, hm, hrest⟩ := (reader_sound _).1 _ _ _ hread
    obtain ⟨r, hr, hskip⟩ := exists_skipBlanks rest
    rw [List.isEmpty_iff.1 hend, List.append_nil] at hskip
    exact ⟨l, m, r, by rw [← hskip]; exact hbs.trans (congrArg (l ++ ·) hrest), hl, hm, hr⟩
  · rintro ⟨l, m, r, rfl, hl, hm, hr⟩
    have hread : readValue (2 * (l ++ (m ++ r)).length + 2) (m ++ r) = some (v, r) :=
      (reader_complete _).1 m v r hm (by simp; omega) (marked_of_blanks hr)
    unfold read
    rw [skipBlanks_append hl hm.inked, hread]
    dsimp only
    rw [skipBlanks_of_blanks hr]
    rfl

/-- **The one document that bytes hold**: written by the grammar, with blanks around it, every leaf of
it readable and nothing nested deeper than `maxDepth`. It stands for its canonical form, in which the
last of several members of one name is kept. -/
structure Document (bs : List UInt8) (v : Json) : Prop where
  written : ∃ l m r raw, bs = l ++ (m ++ r) ∧ Blanks l ∧ Written m raw ∧ Blanks r ∧
    raw.isReadable = true ∧ raw.depth ≤ maxDepth ∧ v = raw.canonical

theorem parse?_eq_some_iff {v : Json} : parse? bs = some v ↔ Document bs v := by
  unfold parse?
  rw [Option.bind_eq_some_iff]
  constructor
  · rintro ⟨raw, hread, h⟩
    obtain ⟨l, m, r, rfl, hl, hm, hr⟩ := read_eq_some_iff.1 hread
    split at h
    case isFalse => cases h
    rename_i hc
    rw [Bool.and_eq_true, decide_eq_true_iff] at hc
    cases h
    exact ⟨l, m, r, raw, rfl, hl, hm, hr, hc.1, hc.2, rfl⟩
  · rintro ⟨l, m, r, raw, rfl, hl, hm, hr, hreadable, hdepth, rfl⟩
    refine ⟨raw, read_eq_some_iff.2 ⟨l, m, r, rfl, hl, hm, hr⟩, ?_⟩
    rw [if_pos (by rw [hreadable, Bool.true_and, decide_eq_true hdepth])]

end DownloadTriage.Json
