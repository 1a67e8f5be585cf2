import DownloadTriage.Proofs.Mapping
import DownloadTriage.Scan.Pipeline

/-!
# The code at the entry point, for any decoder

The decoder is outside: it may fail, and may give instructions of any number whatever limit it was
asked to keep. What is shown is cut out of its answer here. `Excerpt` says which cuts are allowed,
`LongestExcerpt` which one is wanted, and the loop that stops at a return or at the limit is shown to
find it, following its own recursion.

* `upToReturn_longest`: the loop finds the longest excerpt.
* `walkSnippet_eq`: no machine operation traps between the bytes of an image and its code.
* `disassemble_answers`: when the decoder is asked, for what, and what comes of it.
-/

namespace DownloadTriage

/-! ## Digits -/

namespace Hex

theorem digit_eq_digitChar {n : Nat} (h : n < 16) : digit n = n.digitChar := by
  revert n
  decide

theorem digits_eq_toDigits (n : Nat) : digits n = Nat.toDigits 16 n := by
  fun_induction digits n with
  | case1 n h => rw [Nat.toDigits_of_lt_base h, digit_eq_digitChar h]
  | case2 n h ih =>
    have hlast : n % 16 < 16 := Nat.mod_lt n (by decide)
    rw [ih, digit_eq_digitChar hlast, ← Nat.toDigits_of_lt_base hlast,
      Nat.toDigits_append_toDigits (by decide) (by omega) hlast, Nat.div_add_mod]

end Hex

/-! ## Instructions that return -/

/-- The mnemonic begins with `ret` in letters of either case. -/
def Instruction.Returns (i : Instruction) : Prop :=
  ∃ r e t rest, i.mnemonic.toList = r :: e :: t :: rest ∧
    (r = 'r' ∨ r = 'R') ∧ (e = 'e' ∨ e = 'E') ∧ (t = 't' ∨ t = 'T')

theorem toNat_toLower (c : Char) :
    c.toLower.toNat = if 65 ≤ c.toNat ∧ c.toNat ≤ 90 then c.toNat + 32 else c.toNat := by
  by_cases h : 65 ≤ c.toNat ∧ c.toNat ≤ 90
  · have hlower : c.toLower.toNat = (c.toNat + 32) % 2 ^ 32 := congrArg Char.toNat (dif_pos h)
    rw [if_pos h, hlower, Nat.mod_eq_of_lt (by omega)]
  · rw [if_neg h]
    exact congrArg Char.toNat (dif_neg h)

/-- Two characters have a given small letter as theirs: itself and its capital. -/
theorem toLower_eq_iff {c u l : Char} (hu : 65 ≤ u.toNat ∧ u.toNat ≤ 90)
    (hl : l.toNat = u.toNat + 32) : c.toLower = l ↔ c = l ∨ c = u := by
  rw [← Char.toNat_inj, ← Char.toNat_inj, ← Char.toNat_inj, toNat_toLower]
  split <;> omega

namespace Pe

theorem returns_iff (i : Instruction) : returns i = true ↔ i.Returns := by
  have hr {c : Char} : c.toLower = 'r' ↔ c = 'r' ∨ c = 'R' := toLower_eq_iff (by decide) (by decide)
  have he {c : Char} : c.toLower = 'e' ↔ c = 'e' ∨ c = 'E' := toLower_eq_iff (by decide) (by decide)
  have ht {c : Char} : c.toLower = 't' ↔ c = 't' ∨ c = 'T' := toLower_eq_iff (by decide) (by decide)
  have hret : "ret".toList = ['r', 'e', 't'] := rfl
  rw [returns, asciiLower, String.startsWith_string_iff, String.toList_map, hret, Instruction.Returns]
  constructor
  · intro h
    obtain ⟨rest, hrest⟩ := h
    obtain ⟨c, cs, hc, hcr, hcs⟩ := List.map_eq_cons_iff.1 hrest.symm
    obtain ⟨d, ds, rfl, hde, hds⟩ := List.map_eq_cons_iff.1 hcs
    obtain ⟨x, xs, rfl, hxt, -⟩ := List.map_eq_cons_iff.1 hds
    exact ⟨c, d, x, xs, hc, hr.1 hcr, he.1 hde, ht.1 hxt⟩
  · rintro ⟨c, d, x, xs, hc, hcr, hde, hxt⟩
    rw [hc, List.map_cons, List.map_cons, List.map_cons, hr.2 hcr, he.2 hde, ht.2 hxt]
    exact ⟨xs.map Char.toLower, rfl⟩

/-! ## The instructions that are shown -/

variable {n : Nat} {i : Instruction} {is shown : List Instruction}

/-- The first of some instructions, at most `n`, of which none returns but the last. -/
structure Excerpt (n : Nat) (is shown : List Instruction) : Prop where
  initial : shown <+: is
  short : shown.length ≤ n
  goesOn : ∀ i ∈ shown.dropLast, ¬ i.Returns

/-- The excerpt of which every other one is the beginning. -/
structure LongestExcerpt (n : Nat) (is shown : List Instruction) : Prop extends
    Excerpt n is shown where
  longest : ∀ other, Excerpt n is other → other <+: shown

theorem Excerpt.nil (n : Nat) (is : List Instruction) : Excerpt n is [] :=
  ⟨List.nil_prefix, Nat.zero_le n, fun _ h => nomatch h⟩

/-- One more instruction in front: it returns only if it is the last. -/
theorem excerpt_cons_iff : Excerpt (n + 1) (i :: is) (i :: shown) ↔
    Excerpt n is shown ∧ (i.Returns → shown = []) := by
  constructor
  · rintro ⟨hinitial, hshort, hgoesOn⟩
    refine ⟨⟨(List.cons_prefix_cons.1 hinitial).2, Nat.le_of_succ_le_succ hshort, ?_⟩, ?_⟩
    · intro j hj
      have hne : shown ≠ [] := fun h => by rw [h] at hj; exact nomatch hj
      exact hgoesOn j (by rw [List.dropLast_cons_of_ne_nil hne]; exact List.mem_cons_of_mem i hj)
    · intro hreturns
      by_contra hne
      exact hgoesOn i (by rw [List.dropLast_cons_of_ne_nil hne]; exact List.mem_cons_self) hreturns
  · rintro ⟨⟨hinitial, hshort, hgoesOn⟩, hlast⟩
    refine ⟨List.cons_prefix_cons.2 ⟨rfl, hinitial⟩, Nat.succ_le_succ hshort, ?_⟩
    by_cases hne : shown = []
    · rw [hne]
      exact fun _ h => nomatch h
    · rw [List.dropLast_cons_of_ne_nil hne]
      exact List.forall_mem_cons.2 ⟨fun hreturns => hne (hlast hreturns), hgoesOn⟩

/-- **The loop finds the longest excerpt.** -/
theorem upToReturn_longest (n : Nat) (is : List Instruction) :
    LongestExcerpt n is (upToReturn n is) := by
  fun_induction upToReturn n is with
  | case1 is =>
    refine ⟨.nil 0 is, fun other h => ?_⟩
    obtain rfl : other = [] := List.length_eq_zero_iff.1 (Nat.le_zero.1 h.short)
    exact List.nil_prefix
  | case2 n => exact ⟨.nil (n + 1) [], fun _ h => h.initial⟩
  | case3 n i is hreturns =>
    -- `i` returns, so every excerpt that begins with it ends with it
    have hi := (returns_iff i).1 hreturns
    refine ⟨excerpt_cons_iff.2 ⟨.nil n is, fun _ => rfl⟩, fun other h => ?_⟩
    rcases List.prefix_cons_iff.1 h.initial with rfl | ⟨rest, rfl, -⟩
    · exact List.nil_prefix
    · obtain rfl : rest = [] := (excerpt_cons_iff.1 h).2 hi
      exact List.prefix_rfl
  | case4 n i is hreturns ih =>
    have hi : ¬ i.Returns := fun h => hreturns ((returns_iff i).2 h)
    refine ⟨excerpt_cons_iff.2 ⟨ih.toExcerpt, fun h => absurd h hi⟩, fun other h => ?_⟩
    rcases List.prefix_cons_iff.1 h.initial with rfl | ⟨rest, rfl, -⟩
    · exact List.nil_prefix
    · exact List.cons_prefix_cons.2 ⟨rfl, ih.longest rest (excerpt_cons_iff.1 h).1⟩

/-- The longest excerpt ends with the first instruction that returns, if it is one of the first. -/
theorem LongestExcerpt.eq_of_returns {before after : List Instruction} {r : Instruction}
    (h : LongestExcerpt n is shown) (hsplit : is.take n = before ++ r :: after)
    (hbefore : ∀ i ∈ before, ¬ i.Returns) (hr : r.Returns) : shown = before ++ [r] := by
  have hbegins : before ++ [r] <+: is.take n := ⟨after, by rw [hsplit, List.append_assoc]; rfl⟩
  have hexcerpt : Excerpt n is (before ++ [r]) := by
    refine ⟨hbegins.trans (List.take_prefix n is), ?_, ?_⟩
    · exact hbegins.length_le.trans (List.length_take_le n is)
    · rwa [List.dropLast_concat]
  obtain ⟨more, rfl⟩ := h.longest _ hexcerpt
  cases more with
  | nil => rw [List.append_nil]
  | cons x xs =>
    -- then `r` would be shown in front of the last
    have hmem : r ∈ (before ++ [r] ++ x :: xs).dropLast := by
      rw [List.dropLast_append_cons]
      exact List.mem_append_left _ (List.mem_append_right _ List.mem_cons_self)
    exact absurd hr (h.goesOn r hmem)

/-! ## Asking the decoder -/

/-- The code at the entry point of an image, as a program that asks a decoder. -/
def disassemble (b : Array UInt8) : Program (Except SnippetError Snippet) :=
  match snippetQuery b with
  | .error e => pure (.error e)
  | .ok (h, query) => do
    pure (Snippet.ofAnswer h (← Program.request (.decode query)))

/-- The program gives what `snippet` gives, and leaves a mark if the decoder was asked. -/
theorem disassemble_eval (b : Array UInt8) (w : World) :
    (disassemble b).eval w = (snippet w.around.decoder b,
      match snippetQuery b with
      | .error _ => w
      | .ok (_, query) => w.mark (.decoded query)) := by
  rw [disassemble, snippet]
  cases snippetQuery b with
  | error e => rfl
  | ok hq => rfl

theorem snippetRequest_eq (b : Array UInt8) (h : Headers) :
    snippetRequest b h = ((offsetOfRva h.entryRva h.sections).filter (· < b.size)).map fun o =>
      ⟨b.extract o (min b.size (o + windowSize)), h.entryRva.toUInt64, h.is64, maxInstructions⟩ := by
  rw [snippetRequest]
  cases offsetOfRva h.entryRva h.sections with
  | none => rfl
  | some o =>
    rw [Option.filter_some]
    by_cases ho : o < b.size
    · simp only [if_pos ho, decide_eq_true ho]
      rfl
    · simp only [if_neg ho, decide_eq_false ho]
      rfl

/-! ## The way to the code in machine operations -/

/-- The refusal as another one. -/
def Halt.map {ε ε' : Type} (f : ε → ε') : Halt ε → Halt ε'
  | .refused e => .refused (f e)
  | .trapped => .trapped

/-- The code at the entry point in machine operations. -/
def walkSnippet (decode : Decoder) (b : Array UInt8) : Except (Halt SnippetError) Snippet := do
  let h ← (walk b).mapError (Halt.map .malformed)
  match (← walkOffset h.entryRva h.sections).filter (· < b.size) with
  | none => .error (.refused .unmapped)
  | some o =>
    let stop := min b.size (← Halt.add o windowSize)
    let window ← Halt.piece b o stop
    let answer := decode ⟨window, h.entryRva.toUInt64, h.is64, maxInstructions⟩
    (Snippet.ofAnswer h answer).mapError .refused

/-- **No operation traps between an image and its code**, whatever the decoder answers. -/
theorem walkSnippet_eq (decode : Decoder) (b : Array UInt8) :
    walkSnippet decode b = (snippet decode b).mapError .refused := by
  rw [walkSnippet, walk_eq, snippet, snippetQuery]
  cases parseHeaders b with
  | error f => rfl
  | ok h =>
    simp only [Except.mapError]
    rw [Halt.ok_bind, walkOffset_eq, Halt.ok_bind, snippetRequest_eq]
    cases hoffset : (offsetOfRva h.entryRva h.sections).filter (· < b.size) with
    | none => rfl
    | some o =>
      obtain ⟨hmapped, hinside⟩ := Option.filter_eq_some_iff.1 hoffset
      have hword : o < 2 ^ 32 := offsetOfRva_lt hmapped
      have hsize : o < b.size := of_decide_eq_true hinside
      dsimp only [Option.map_some]
      rw [Halt.add_eq (by unfold windowSize; omega), Halt.ok_bind,
        Halt.piece_eq (by omega) (Nat.min_le_left ..), Halt.ok_bind]

end Pe

/-! ## In the scan of a file -/

/-- The code of a file that can be read is that of its content; a failure is logged and there is
none. -/
theorem Pipeline.code_eval {p : Path} {w : World} {data : Array UInt8}
    (hr : w.files.read p = .ok data) :
    (Pipeline.code p).eval w = match (Pe.disassemble data).eval w with
      | (.ok s, w') => (some s, w')
      | (.error e, w') => (none, w'.mark (.logged (.error
          ("[Disasm] Failed to generate disassembly: " ++ e.message)))) := by
  rw [Pe.disassemble_eval, Pe.snippet, Pipeline.code]
  simp only [bind, Program.bind, Program.request, Program.eval, World.answer, hr]
  cases Pe.snippetQuery data with
  | error e => rfl
  | ok hq =>
    simp only [Program.eval, World.answer]
    cases Pe.Snippet.ofAnswer hq.1 (w.around.decoder hq.2) with
    | error e => rfl
    | ok s => rfl

namespace Pe

/-! ## What is shown -/

/-- The code is what the headers and the decoder's instructions say: the longest excerpt of at most
200 instructions, up to the first of these that returns if one does, with the addresses in
hexadecimal. -/
structure Snippet.Shows (s : Snippet) (h : Headers) (is : List Instruction) : Prop where
  entry : s.entryRva = h.entryRva
  mode : s.is64 = h.is64
  arch : s.arch = if h.is64 then "x86_64" else "x86"
  lines : ∃ shown, LongestExcerpt 200 is shown ∧
    (∀ before r after, is.take 200 = before ++ r :: after → (∀ i ∈ before, ¬ i.Returns) →
      r.Returns → shown = before ++ [r]) ∧
    s.lines = shown.map fun i =>
      ⟨"0x" ++ String.ofList (Nat.toDigits 16 i.address.toNat), i.mnemonic, i.operands⟩

theorem ofAnswer_shows (h : Headers) (answer : Except DecodeError (List Instruction)) :
    match answer with
    | .error e => Snippet.ofAnswer h answer = .error (.decoder e)
    | .ok is => ∃ s, Snippet.ofAnswer h answer = .ok s ∧ s.Shows h is := by
  cases answer with
  | error e => rfl
  | ok is =>
    have hlongest := upToReturn_longest maxInstructions is
    refine ⟨_, rfl, rfl, rfl, rfl, upToReturn maxInstructions is, hlongest, ?_, ?_⟩
    · exact fun before r after hsplit hbefore hr => hlongest.eq_of_returns hsplit hbefore hr
    · refine List.map_congr_left fun i _ => ?_
      rw [CodeLine.ofInstruction, Hex.prefixed, Hex.digits_eq_toDigits]

/-- **The code at the entry point, for every image and decoder.** No machine operation traps. The
decoder is asked exactly if the headers are read and the entry point is mapped to an offset inside
the image, and then once: for the bytes of the window at this offset, of which there is one at least.
What is wrong with the headers is told before what is wrong with the entry point, and this before
what the decoder says; otherwise its instructions are shown up to the first return. A scan that
comes to the image in a file does the same. -/
theorem disassemble_answers (b : Array UInt8) (w : World) :
    ((disassemble b).eval w).1 = snippet w.around.decoder b ∧
    walkSnippet w.around.decoder b = (snippet w.around.decoder b).mapError .refused ∧
    (match parseHeaders b with
    | .error f => (disassemble b).eval w = (.error (.malformed f), w)
    | .ok h =>
      match (offsetOfRva h.entryRva h.sections).filter (· < b.size) with
      | none => (disassemble b).eval w = (.error .unmapped, w)
      | some o =>
        let query : DecodeRequest :=
          ⟨b.extract o (min b.size (o + 1024)), h.entryRva.toUInt64, h.is64, 200⟩
        0 < query.code.size ∧ ((disassemble b).eval w).2 = w.mark (.decoded query) ∧
        match w.around.decoder query with
        | .error e => ((disassemble b).eval w).1 = .error (.decoder e)
        | .ok is => ∃ s, ((disassemble b).eval w).1 = .ok s ∧ s.Shows h is) ∧
    ∀ p, w.files.read p = .ok b →
      (Pipeline.code p).eval w = match (disassemble b).eval w with
        | (.ok s, w') => (some s, w')
        | (.error e, w') => (none, w'.mark (.logged (.error
            ("[Disasm] Failed to generate disassembly: " ++ e.message)))) := by
  refine ⟨by rw [disassemble_eval], walkSnippet_eq _ b, ?_, fun p hr => Pipeline.code_eval hr⟩
  rw [disassemble_eval, snippet, snippetQuery]
  cases parseHeaders b with
  | error f => rfl
  | ok h =>
    dsimp only
    rw [snippetRequest_eq]
    cases hoffset : (offsetOfRva h.entryRva h.sections).filter (· < b.size) with
    | none => rfl
    | some o =>
      have hinside : o < b.size := of_decide_eq_true (Option.filter_eq_some_iff.1 hoffset).2
      dsimp only [Option.map_some]
      refine ⟨?_, rfl, ofAnswer_shows h _⟩
      rw [Array.size_extract]
      omega

end Pe

end DownloadTriage
