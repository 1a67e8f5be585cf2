import DownloadTriage.Proofs.Disassembly

/-!
# Images that are cut short

The first bytes of an image say the same as the whole image, as far as they go: every offset that the
walk over the headers uses is read from bytes in front of the end, so it is the same offset in the
whole image, and a longer section table only has further sections. So a file is probed on its head
without being misjudged, and what is probed as an image has headers when it is read again.

* `HasHeaders.of_head`, `sectionTable_head`: what a head has, the image has.
* `probe_eq`: the probe of a file is the judgement of its whole content.
* `probeFile_judges`: the probe, the head and the code of a file that stays as it is.
-/

namespace DownloadTriage

namespace Pe

variable {b : Array UInt8} {n : Nat}

/-! ## The head of an image -/

theorem size_head (b : Array UInt8) (n : Nat) : (b.extract 0 n).size = min n b.size := by
  rw [Array.size_extract, Nat.sub_zero]

/-- A number in the head is the number in the image. -/
theorem numberAt_head {i m : Nat} (h : i + m ≤ (b.extract 0 n).size) :
    numberAt (b.extract 0 n) i m = numberAt b i m := by
  rw [size_head] at h
  rw [numberAt_extract (by omega), Nat.zero_add]

theorem bytesAt_head {i m : Nat} (h : i + m ≤ (b.extract 0 n).size) :
    bytesAt (b.extract 0 n) i m = bytesAt b i m := by
  rw [size_head] at h
  rw [bytesAt_extract (by omega), Nat.zero_add]

/-- A section in the head is the section in the image. -/
theorem sectionAt_head {i : Nat} (h : i + sectionSize ≤ (b.extract 0 n).size) :
    sectionAt (b.extract 0 n) i = sectionAt b i := by
  have hsize : i + 40 ≤ min n b.size := size_head b n ▸ h
  rw [sectionAt, sectionAt, nameBytes_eq (by rw [size_head]; omega), nameBytes_eq (by omega),
    bytesAt_head (by rw [size_head]; omega), numberAt_head (by rw [size_head]; omega),
    numberAt_head (by rw [size_head]; omega), numberAt_head (by rw [size_head]; omega),
    numberAt_head (by rw [size_head]; omega)]

/-- A section table read in the head is the beginning of the one in the image. -/
theorem sectionTable_head (b : Array UInt8) (n table count : Nat) :
    sectionTable (b.extract 0 n) table count <+: sectionTable b table count := by
  rw [sectionTable_eq, sectionTable_eq]
  have hsize := size_head b n
  have hentries : entriesFrom (b.extract 0 n) table ≤ entriesFrom b table := by
    rw [entriesFrom, hsize]
    exact Nat.div_le_div_right (by omega)
  have hsections : ∀ k ∈ List.range (min count (entriesFrom (b.extract 0 n) table)),
      sectionAt (b.extract 0 n) (table + sectionSize * k) =
        sectionAt b (table + sectionSize * k) := by
    intro k hk
    have hfits : k < entriesFrom (b.extract 0 n) table :=
      (List.mem_range.1 hk).trans_le (Nat.min_le_right ..)
    refine sectionAt_head ?_
    unfold entriesFrom sectionSize at *
    omega
  rw [List.map_congr_left hsections]
  refine List.IsPrefix.map _ ?_
  rw [← Nat.min_eq_left (min_le_min_left count hentries), ← List.take_range]
  exact List.take_prefix ..

namespace HasHeaders

variable (h : HasHeaders (b.extract 0 n))
include h

/-- The signature of a head stands where that of the image does. -/
theorem peOffset_head : peOffset (b.extract 0 n) = peOffset b := by
  have hlong := h.long
  exact numberAt_head (by unfold offsetField; omega)

/-- **What a head has, the image has**: it is as long as that, and signed. -/
theorem of_head : HasHeaders b := by
  have hoffset := h.peOffset_head
  have hlong := h.long
  have hfields := h.fields
  have hsigned := h.signed
  rw [size_head] at hlong
  rw [bytesAt_head (by omega), hoffset] at hsigned
  rw [size_head, hoffset] at hfields
  exact ⟨by omega, by omega, hsigned⟩

theorem declaredSections_head : declaredSections (b.extract 0 n) = declaredSections b := by
  have hfields := h.fields
  rw [declaredSections, numberAt_head (by omega), h.peOffset_head, declaredSections]

theorem tableOffset_head : tableOffset (b.extract 0 n) = tableOffset b := by
  have hfields := h.fields
  rw [tableOffset, numberAt_head (by omega), h.peOffset_head, tableOffset]

/-- **The sections of a head** are the first ones of the image: as many as fit into the head. -/
theorem sections_head : (headersOf (b.extract 0 n)).sections <+: (headersOf b).sections := by
  simp only [headersOf]
  rw [h.tableOffset_head, h.declaredSections_head]
  exact sectionTable_head b n _ _

/-- The headers of a head and of the image agree but for the sections. -/
theorem headers_head : (headersOf b).entryRva = (headersOf (b.extract 0 n)).entryRva ∧
    (headersOf b).is64 = (headersOf (b.extract 0 n)).is64 := by
  have hfields := h.fields
  simp only [headersOf]
  rw [numberAt_head (by omega), numberAt_head (by omega), h.peOffset_head]
  exact ⟨rfl, rfl⟩

end HasHeaders

/-! ## Probing a file -/

theorem isImage_iff : isImage b = true ↔ HasHeaders b := by
  rw [isImage]
  by_cases hb : HasHeaders b
  · rw [hb.parse]
    exact iff_of_true rfl hb
  · obtain ⟨f, hf⟩ := parseHeaders_of_not_hasHeaders hb
    rw [hf]
    exact iff_of_false Bool.false_ne_true hb

/-- **The probe judges the whole file**, although it reads the head alone where that suffices. -/
theorem probe_eq (b : Array UInt8) : probe b = isImage b := by
  rw [Bool.eq_iff_iff, probe, Bool.or_eq_true, Bool.and_eq_true, isImage_iff, isImage_iff,
    decide_eq_true_eq]
  constructor
  · rintro (hhead | ⟨-, hb⟩)
    · exact hhead.of_head
    · exact hb
  · intro hb
    by_cases hlong : headSize < b.size
    · exact .inr ⟨hlong, hb⟩
    · -- a file no longer than the head is its own head
      rw [Array.extract_eq_self_of_le (Nat.not_lt.1 hlong)]
      exact .inl hb

/-- An image is not refused when the code at its entry point is looked for. -/
theorem snippet_ne_malformed (hb : HasHeaders b) (decode : Decoder) (f : HeaderFault) :
    snippet decode b ≠ .error (.malformed f) := by
  rw [snippet, snippetQuery, hb.parse]
  dsimp only
  cases snippetRequest b (headersOf b) with
  | none => simp
  | some r =>
    dsimp only
    cases decode r with
    | error e => simp [Snippet.ofAnswer]
    | ok is => simp [Snippet.ofAnswer]

theorem probeFile_eq {t : FileTree} {p : Path} {data : Array UInt8} (hr : t.read p = .ok data) :
    probeFile t p = .ok (isImage data) := by
  rw [probeFile, hr, ← probe_eq]
  rfl

end Pe

/-! ## A file that stays as it is -/

namespace Pipeline

variable {p : Path} {w : World} {data : Array UInt8}

theorem probe_eval (hr : w.files.read p = .ok data) :
    ((Pipeline.probe p).eval w).1 = Pe.isImage data := by
  simp only [Pipeline.probe, bind, Program.bind, Program.request, Program.eval, World.answer,
    Pe.probeFile_eq hr]
  rfl

/-- The code of a file that can be read, as the decoder of the surroundings gives it. -/
theorem code_result (hr : w.files.read p = .ok data) :
    ((Pipeline.code p).eval w).1 = (Pe.snippet w.around.decoder data).toOption := by
  rw [code_eval hr, Pe.disassemble_eval]
  cases Pe.snippet w.around.decoder data with
  | error e => rfl
  | ok s => rfl

end Pipeline

namespace Pe

/-- **The head of a file decides as the whole file does.** A file that can be read is probed as an
image exactly if its content has headers, and probed as none otherwise. Headers that are found in
the first bytes of an image are found in the image, with the same entry point and mode, and with the
sections found there as its first ones. So when a scan probes a file as an image, the code that it
looks for afterwards, in the same content, is not refused as malformed. -/
theorem probeFile_judges (b : Array UInt8) :
    (∀ (t : FileTree) (p : Path), t.read p = .ok b →
      (probeFile t p = .ok true ↔ ∃ h, parseHeaders b = .ok h) ∧
      (probeFile t p = .ok false ↔ ∃ f, parseHeaders b = .error f)) ∧
    (∀ n h, parseHeaders (b.extract 0 n) = .ok h →
      ∃ whole, parseHeaders b = .ok whole ∧ whole.entryRva = h.entryRva ∧ whole.is64 = h.is64 ∧
        h.sections <+: whole.sections) ∧
    ∀ (p : Path) (w w' : World), w.files.read p = .ok b → w'.files.read p = .ok b →
      ((Pipeline.probe p).eval w).1 = true →
      ((Pipeline.code p).eval w').1 = (snippet w'.around.decoder b).toOption ∧
        ∀ f, snippet w'.around.decoder b ≠ .error (.malformed f) := by
  refine ⟨fun t p hr => ?_, fun n h hn => ?_, fun p w w' hw hw' hprobe => ?_⟩
  · rw [probeFile_eq hr, isImage]
    cases parseHeaders b with
    | error f => simp [Except.isOk, Except.toBool]
    | ok h => simp [Except.isOk, Except.toBool]
  · obtain ⟨hhead, rfl⟩ := parseHeaders_eq_ok_iff.1 hn
    exact ⟨_, hhead.of_head.parse, hhead.headers_head.1, hhead.headers_head.2, hhead.sections_head⟩
  · rw [Pipeline.probe_eval hw, isImage_iff] at hprobe
    exact ⟨Pipeline.code_result hw', snippet_ne_malformed hprobe _⟩

end Pe

end DownloadTriage
