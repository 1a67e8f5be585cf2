import DownloadTriage.Proofs.Decoding
import DownloadTriage.Proofs.Grammar
import DownloadTriage.Proofs.Recall

/-!
# The record follows the file

The record is a file that anyone may overwrite or remove. What is loaded is what the file holds then:
a URL exactly if its content is one record that says one. So only the last change counts, be it one of
the agent or of others.

* `FileTree.HasRoom.unlink`, `FileTree.HasRoom.put`: a path keeps its room when its file comes and goes.
* `load_eq_some_iff`: what is loaded, by the content of the file.
* `HasRoom.changed`: after any changes the file is as the last one left it.
* `LastKnown.load_follows`: all of it together.
-/

namespace DownloadTriage

namespace FileTree

variable {t : FileTree} {p : Path} {here dir start : Place} {ns : List (List UInt8)}

/-! ## A file comes -/

/-- A path has its entry below any directory that its names lead to. -/
theorem entry_of_follow {name : List UInt8} (hs : t.start p = .ok start)
    (hf : t.follow start p.names.dropLast = .ok dir) (hd : t.node? dir = some .directory)
    (hl : p.lastStep? = some name) (hnd : namesDirectory p = false) (hlong : isLong name = false) :
    t.entry p = .ok (dir ++ [name]) := by
  unfold entry
  rw [hl]
  simp only [hs, hf, bind, Except.bind, hd, hnd, hlong, Bool.false_eq_true, if_false]

/-- No entry is the root. -/
theorem ne_nil_of_entry (h : t.entry p = .ok here) : here ≠ [] := by
  obtain ⟨-, dir, name, -, -, -, -, -, -, rfl⟩ := entry_eq_ok h
  simp

/-- The entry of a path is where it leads. -/
theorem place_of_entry (h : t.entry p = .ok here) : t.place p = .ok here := by
  obtain ⟨start, dir, name, hs, hf, hd, hl, hnd, hlong, rfl⟩ := entry_eq_ok h
  obtain ⟨hnames, hparent⟩ := Path.names_of_lastStep hl hnd
  show (t.start p).bind _ = _
  rw [hs]
  show follow _ start p.names = _
  rw [hnames, follow_append, hf]
  show follow _ dir [name] = _
  rw [follow, hd]
  dsimp only
  rw [if_neg hparent, if_neg (by simp [hlong])]
  rfl

/-- What stands at the entry of a path is what the path leads to. -/
theorem look_of_entry (h : t.entry p = .ok here) :
    t.look p = match t.node? here with
      | none => .error .notFound
      | some n => .ok (here, n) := by
  obtain ⟨-, -, -, -, -, -, -, hnd, -, -⟩ := entry_eq_ok h
  unfold look
  rw [place_of_entry h]
  cases hn : t.node? here with
  | none => simp only [bind, Except.bind, hn]
  | some n => simp only [bind, Except.bind, hn, hnd, Bool.false_eq_true, false_and, if_false]

theorem entry_put {n : Node} (h : t.entry p = .ok here) (hn : t.node? here ≠ some .directory) :
    (t.put here n).entry p = .ok here := by
  obtain ⟨start, dir, name, hs, hf, hd, hl, hnd, hlong, rfl⟩ := entry_eq_ok h
  refine entry_of_follow hs (follow_put hn hf) ?_ hl hnd hlong
  rw [node?_put_of_ne t n (by simp), hd]

/-- **A file that is written** leaves the path its room. -/
theorem HasRoom.write (h : t.HasRoom p) (data : Array UInt8) :
    ∃ t', t.write p data = .ok t' ∧ t'.HasRoom p ∧ t'.read p = .ok data := by
  obtain ⟨here, he, hdir, hdev⟩ := h
  have hne := ne_nil_of_entry he
  refine ⟨t.put here (.file (.bytes data)), write_of_entry he hdir hdev data,
    ⟨here, entry_put he hdir, ?_, ?_⟩, ?_⟩
  · rw [node?_put_self _ _ hne]
    simp
  · rw [node?_put_self _ _ hne]
    simp
  · unfold read content
    rw [look_put he hdir]
    rfl

/-! ## A file goes -/

/-- The tree without a place and what lies below it. -/
def without (t : FileTree) (here : Place) : FileTree :=
  { t with nodes := t.nodes.filter fun m => !here.isPrefixOf m.1 }

theorem isPrefixOf_eq_false_iff : here.isPrefixOf start = false ↔ ¬ here <+: start := by
  rw [← List.isPrefixOf_iff_prefix, Bool.not_eq_true]

theorem node?_without_of_not_below (h : ¬ here <+: start) :
    (t.without here).node? start = t.node? start := by
  unfold node? without
  split
  · rfl
  · induction t.nodes with
    | nil => rfl
    | cons m nodes ih =>
      by_cases hm : here <+: m.1
      · have hne : start ≠ m.1 := fun he => h (he ▸ hm)
        rw [List.filter_cons_of_neg (by simpa using hm), ih, List.lookup_cons, beq_false_of_ne hne]
      · have hkept : (!here.isPrefixOf m.1) = true := by rw [isPrefixOf_eq_false_iff.2 hm]; rfl
        rw [List.filter_cons_of_pos (by exact hkept), List.lookup_cons, List.lookup_cons, ih]

theorem node?_without_self (h : here ≠ []) : (t.without here).node? here = none := by
  unfold node? without
  rw [if_neg h, List.lookup_eq_none_iff]
  intro m hm
  have hout := isPrefixOf_eq_false_iff.1 (Bool.not_eq_true' _ ▸ (List.mem_filter.1 hm).2)
  exact bne_iff_ne.2 fun he => hout (he ▸ List.prefix_rfl)

/-- Names lead out of what lies below a place only through it. -/
theorem below_of_follow (hn : t.node? here ≠ some .directory) (hbelow : here <+: start)
    (hf : t.follow start ns = .ok dir) : here <+: dir := by
  induction ns generalizing start with
  | nil =>
    cases hf
    exact hbelow
  | cons m ns ih =>
    rw [follow] at hf
    split at hf
    · cases hf
    · rename_i hdir
      have hne : here ≠ start := fun he => hn (he ▸ hdir)
      split at hf
      · refine ih ?_ hf
        obtain ⟨rest, rfl⟩ := hbelow
        have hrest : rest ≠ [] := by
          rintro rfl
          simp at hne
        rw [List.dropLast_append_of_ne_nil hrest]
        exact List.prefix_append here _
      · split at hf
        · cases hf
        · exact ih (hbelow.trans (List.prefix_append start [m])) hf
    · cases hf

/-- To take away no directory leads nobody astray who does not end up there. -/
theorem follow_without (hn : t.node? here ≠ some .directory) (hout : ¬ here <+: dir)
    (hf : t.follow start ns = .ok dir) : (t.without here).follow start ns = .ok dir := by
  induction ns generalizing start with
  | nil => exact hf
  | cons m ns ih =>
    have hstart : ¬ here <+: start := fun hbelow => hout (below_of_follow hn hbelow hf)
    rw [follow] at hf ⊢
    rw [node?_without_of_not_below hstart]
    cases hk : t.node? start with
    | none => rw [hk] at hf; cases hf
    | some k =>
      cases k with
      | file c => rw [hk] at hf; cases hf
      | device => rw [hk] at hf; cases hf
      | directory =>
        rw [hk] at hf
        dsimp only at hf ⊢
        split at hf
        · rename_i hp
          rw [if_pos hp]
          exact ih hf
        · rename_i hp
          rw [if_neg hp]
          split at hf
          · cases hf
          · rename_i hl
            rw [if_neg hl]
            exact ih hf

theorem entry_without (h : t.entry p = .ok here) (hn : t.node? here ≠ some .directory) :
    (t.without here).entry p = .ok here := by
  obtain ⟨start, dir, name, hs, hf, hd, hl, hnd, hlong, rfl⟩ := entry_eq_ok h
  have hout : ¬ dir ++ [name] <+: dir := by
    intro hle
    have := hle.length_le
    simp at this
  refine entry_of_follow hs (follow_without hn hout hf) ?_ hl hnd hlong
  rw [node?_without_of_not_below hout, hd]

/-- **A file that is removed** leaves the path its room. -/
theorem HasRoom.unlink (h : t.HasRoom p) :
    (t.unlink p).HasRoom p ∧ (t.unlink p).read p = .error .notFound := by
  obtain ⟨here, he, hdir, hdev⟩ := h
  have hlook := look_of_entry he
  have hne := ne_nil_of_entry he
  have hread {t' : FileTree} (he' : t'.entry p = .ok here) (hnone : t'.node? here = none) :
      t'.read p = .error .notFound := by
    unfold read content
    rw [look_of_entry he', hnone]
    rfl
  cases hn : t.node? here with
  | none =>
    -- nothing stands there, and nothing changes
    rw [hn] at hlook
    have hsame : t.unlink p = t := by
      simp only [FileTree.unlink, isDirectory, remove, hlook, Bool.false_eq_true, if_false]
    rw [hsame]
    exact ⟨⟨here, he, hdir, hdev⟩, hread he hn⟩
  | some n =>
    rw [hn] at hlook
    have hgone : t.unlink p = t.without here := by
      have hfile : t.isDirectory p = false := by
        unfold isDirectory
        rw [hlook]
        cases n with
        | file c => rfl
        | device => rfl
        | directory => exact absurd hn hdir
      simp only [FileTree.unlink, hfile, Bool.false_eq_true, if_false, remove, hlook]
      rfl
    have hnone : (t.without here).node? here = none := node?_without_self hne
    rw [hgone]
    refine ⟨⟨here, entry_without he hdir, ?_, ?_⟩, hread (entry_without he hdir) hnone⟩
    · rw [hnone]
      simp
    · rw [hnone]
      simp

/-- A write that does not keep its bytes is refused, or taken by a device. -/
theorem write_cases (t : FileTree) (p : Path) (data : Array UInt8) :
    t.HasRoom p ∨ (∃ e, t.write p data = .error e) ∨
      (t.write p data = .ok t ∧ t.content p = .ok (.bytes #[])) := by
  cases he : t.entry p with
  | error e =>
    refine .inr (.inl ⟨e, ?_⟩)
    unfold FileTree.write
    rw [he]
    rfl
  | ok here =>
    by_cases hdir : t.node? here = some .directory
    · refine .inr (.inl ⟨.isDirectory, ?_⟩)
      unfold FileTree.write
      rw [he]
      dsimp only [bind, Except.bind]
      rw [hdir]
    by_cases hdev : t.node? here = some .device
    · refine .inr (.inr ⟨?_, ?_⟩)
      · unfold FileTree.write
        rw [he]
        dsimp only [bind, Except.bind]
        rw [hdev]
      · unfold content
        rw [look_of_entry he, hdev]
        rfl
    · exact .inl ⟨here, he, hdir, hdev⟩

end FileTree

namespace Utf8

/-- The bytes of a text, and of no other. -/
theorem decode?_eq_some_iff {bs : List UInt8} {s : String} : decode? bs = some s ↔ bytes s = bs := by
  constructor
  · intro h
    unfold decode? String.fromUTF8? at h
    split at h
    case isFalse => cases h
    cases h
    simp [bytes, String.fromUTF8]
  · rintro rfl
    exact decode?_bytes s

end Utf8

namespace LastKnown

open Json

variable {t : FileTree} {p : Path} {url : String} {bs : List UInt8}

/-! ## What a content says -/

/-- **The content is the record of a URL**: text, one document with nothing but blanks around it, and
a record whose one field is a text that is not empty. -/
def Says (bs : List UInt8) (url : String) : Prop :=
  (∃ s, Utf8.bytes s = bs) ∧ url ≠ "" ∧
    ∃ l m r v field, bs = l ++ (m ++ r) ∧ Blanks l ∧ Written m v ∧ Blanks r ∧
      Gives ["baseUrl"] v field ∧ field "baseUrl" = some (str url)

theorem reads_record_url : Reads ofJson? fun v url =>
    ∃ field, Gives ["baseUrl"] v field ∧ Must (Exactly str) (field "baseUrl") url := by
  refine reads_record (by decide) fun field url => ?_
  exact reads_string.must

theorem must_string_iff {slot : Option Json} : Must (Exactly str) slot url ↔ slot = some (str url) := by
  unfold Must Exactly
  simp only [exists_eq_right]

theorem decode?_eq_some_iff : decode? bs = some url ↔ Says bs url := by
  unfold decode? Says
  rw [Option.filter_eq_some_iff, Option.bind_eq_some_iff]
  simp only [Option.bind_eq_some_iff, Utf8.decode?_eq_some_iff, Json.read_eq_some_iff,
    reads_record_url _ _, must_string_iff, decide_eq_true_iff]
  constructor
  · rintro ⟨⟨v, ⟨s, hs, l, m, r, hbs, hl, hm, hr⟩, field, hgives, hfield⟩, hu⟩
    exact ⟨⟨s, hs⟩, hu, l, m, r, v, field, hbs, hl, hm, hr, hgives, hfield⟩
  · rintro ⟨⟨s, hs⟩, hu, l, m, r, v, field, hbs, hl, hm, hr, hgives, hfield⟩
    exact ⟨⟨v, ⟨s, hs, l, m, r, hbs, hl, hm, hr⟩, field, hgives, hfield⟩, hu⟩

/-- **What is loaded** is what the content of the file says. -/
theorem load_eq_some_iff :
    load t (some p) = some url ↔ ∃ data, t.read p = .ok data ∧ Says data.toList url := by
  unfold load
  dsimp only
  cases t.read p with
  | error e => simp
  | ok data => simp [decode?_eq_some_iff]

/-- The record of no URL says none. -/
theorem decode?_encode_empty : decode? (encode "") = none := by
  decide +kernel

theorem decode?_encode_eq (url : String) :
    decode? (encode url) = if url = "" then none else some url := by
  by_cases h : url = ""
  · rw [if_pos h, h, decode?_encode_empty]
  · rw [if_neg h, decode?_encode h]

/-! ## Changes -/

/-- What becomes of the file at a path: the agent records a URL in it, or others overwrite or remove
it. -/
inductive Change where
  | saved (url : String)
  | overwritten (data : Array UInt8)
  | removed
  deriving DecidableEq, Repr

/-- The files after a change; one that is refused changes nothing. -/
def Change.act (p : Path) (t : FileTree) : Change → FileTree
  | saved url => (save t url (some p)).1
  | overwritten data =>
    match t.write p data with
    | .ok t' => t'
    | .error _ => t
  | removed => t.unlink p

/-- The files after changes, one after the other. -/
def changed (p : Path) (t : FileTree) (cs : List Change) : FileTree := cs.foldl (Change.act p) t

/-- What a reader gets after a change. -/
def Change.leaves : Change → Except FileError (Array UInt8)
  | saved url => .ok (encode url).toArray
  | overwritten data => .ok data
  | removed => .error .notFound

/-- The URL that is recorded after a change. -/
def Change.Records (url : String) : Change → Prop
  | saved u => url = u ∧ u ≠ ""
  | overwritten data => Says data.toList url
  | removed => False

/-- **A change** is seen in the file, and the next one is possible as well. -/
theorem HasRoom.act (h : t.HasRoom p) (c : Change) :
    (c.act p t).HasRoom p ∧ (c.act p t).read p = c.leaves := by
  cases c with
  | saved url =>
    obtain ⟨t', hw, hroom, hread⟩ := h.write (encode url).toArray
    have hact : (Change.saved url).act p t = t' := by
      unfold Change.act save
      dsimp only
      rw [hw]
    rw [hact]
    exact ⟨hroom, hread⟩
  | overwritten data =>
    obtain ⟨t', hw, hroom, hread⟩ := h.write data
    have hact : (Change.overwritten data).act p t = t' := by
      unfold Change.act
      dsimp only
      rw [hw]
    rw [hact]
    exact ⟨hroom, hread⟩
  | removed => exact h.unlink

theorem HasRoom.changed (h : t.HasRoom p) (cs : List Change) : (changed p t cs).HasRoom p := by
  induction cs generalizing t with
  | nil => exact h
  | cons c cs ih => exact ih (HasRoom.act h c).1

theorem changed_concat (t : FileTree) (cs : List Change) (c : Change) :
    changed p t (cs ++ [c]) = c.act p (changed p t cs) := by
  unfold changed
  rw [List.foldl_append]
  rfl

/-- **After changes** the file is as the last one left it. -/
theorem read_changed (h : t.HasRoom p) (cs : List Change) (c : Change) :
    (changed p t (cs ++ [c])).read p = c.leaves := by
  rw [changed_concat]
  exact (HasRoom.act (HasRoom.changed h cs) c).2

theorem load_of_read {t' : FileTree} {p' : Path} (h : t.read p = t'.read p') :
    load t (some p) = load t' (some p') := by
  unfold load
  dsimp only
  rw [h]

theorem load_changed (h : t.HasRoom p) (cs : List Change) (c : Change) :
    load (changed p t (cs ++ [c])) (some p) = some url ↔ c.Records url := by
  have hread := read_changed h cs c
  rw [load_eq_some_iff, hread]
  cases c with
  | saved u =>
    simp only [Change.leaves, Except.ok.injEq, exists_eq_left', ← decode?_eq_some_iff,
      decode?_encode_eq, Change.Records]
    by_cases hu : u = ""
    · simp [hu]
    · simp [hu, eq_comm]
  | overwritten data => simp only [Change.leaves, Except.ok.injEq, exists_eq_left', Change.Records]
  | removed => simp [Change.leaves, Change.Records]

theorem load_save (h : t.HasRoom p) (url : String) :
    load (save t url (some p)).1 (some p) = if url = "" then none else some url := by
  have hread : (save t url (some p)).1.read p = .ok (encode url).toArray := (HasRoom.act h (.saved url)).2
  unfold load
  dsimp only
  rw [hread]
  exact decode?_encode_eq url

theorem save_of_hasRoom (h : t.HasRoom p) (url : String) : (save t url (some p)).2 = [] := by
  obtain ⟨t', hw, -, -⟩ := h.write (encode url).toArray
  unfold save
  dsimp only
  rw [hw]

/-- A record that cannot be written is logged, and nothing else happens. -/
theorem save_of_error {e : FileError} (h : t.write p (encode url).toArray = .error e) :
    save t url (some p) =
      (t, [.warn ("[Server] Could not persist last known server: " ++ e.message)]) := by
  unfold save
  dsimp only
  rw [h]

/-- A device takes a record and keeps none. -/
theorem save_of_device (h : t.write p (encode url).toArray = .ok t)
    (hempty : t.content p = .ok (.bytes #[])) :
    save t url (some p) = (t, []) ∧ load t (some p) = none := by
  have hread : t.read p = .ok #[] := by
    unfold FileTree.read
    rw [hempty]
    rfl
  constructor
  · unfold save
    dsimp only
    rw [h]
  · unfold load
    dsimp only
    rw [hread]
    decide

/-- **The record follows the file.** Where the path has room for a file, a URL that is recorded is
loaded, unless it is empty, whatever stood there before; and after any run of changes the last one
decides: a recorded URL, a content that says one, or none once the file is gone. At any path, what is
loaded depends on the content alone, and is a URL exactly if the content is one record that says it.
To load changes nothing. A record that cannot be written changes no file, costs one line in the log,
and a collector is adopted all the same; without a path nothing is recorded and nothing is loaded. -/
theorem load_follows :
    (∀ (t : FileTree) (p : Path), t.HasRoom p →
      (∀ url, load (save t url (some p)).1 (some p) = (if url = "" then none else some url) ∧
        (save t url (some p)).2 = []) ∧
      ∀ cs c url, load (changed p t (cs ++ [c])) (some p) = some url ↔ c.Records url) ∧
    (∀ (t : FileTree) (p : Path) (url : String),
      load t (some p) = some url ↔ ∃ data, t.read p = .ok data ∧ Says data.toList url) ∧
    (∀ (t t' : FileTree) (p p' : Path), t.read p = t'.read p' →
      load t (some p) = load t' (some p')) ∧
    (∀ record w, (Resolver.lastKnown.candidates record).eval w = ((load w.files record).toList, w)) ∧
    (∀ (t : FileTree) (p : Path) (url : String), t.HasRoom p ∨
      (∃ e, t.write p (encode url).toArray = .error e ∧ save t url (some p) =
        (t, [.warn ("[Server] Could not persist last known server: " ++ e.message)])) ∨
      t.content p = .ok (.bytes #[]) ∧ save t url (some p) = (t, []) ∧ load t (some p) = none) ∧
    (∀ (l : Locator) via candidate w,
      ((l.adopt via candidate).eval w).1 = stripSlash candidate ∧
      ((l.adopt via candidate).eval w).2.endpoint = some (stripSlash candidate) ∧
      ((l.adopt via candidate).eval w).2.files = (save w.files (stripSlash candidate) l.record).1) ∧
    (∀ t url, load t none = none ∧ save t url none = (t, [])) := by
  refine ⟨?_, ?_, ?_, ?_, ?_, ?_, ?_⟩
  · intro t p h
    refine ⟨fun url => ⟨load_save h url, save_of_hasRoom h url⟩, ?_⟩
    intro cs c url
    exact load_changed h cs c
  · intro t p url
    exact load_eq_some_iff
  · intro t t' p p' h
    exact load_of_read h
  · intro record w
    rfl
  · intro t p url
    rcases FileTree.write_cases t p (encode url).toArray with h | ⟨e, he⟩ | ⟨hw, hempty⟩
    · exact .inl h
    · exact .inr (.inl ⟨e, he, save_of_error he⟩)
    · exact .inr (.inr ⟨hempty, save_of_device hw hempty⟩)
  · intro l via candidate w
    exact ⟨rfl, rfl, rfl⟩
  · intro t url
    exact ⟨rfl, rfl⟩

/-- A record that was removed, then overwritten with what is no record, and then written again. -/
theorem load_follows_rewritten :
    let cs : List Change := [.saved "http://a", .removed, .overwritten #[0x7B, 0xFF]]
    FileTree.HasRoom ⟨[], []⟩ Locator.rootRecord ∧
      load (changed Locator.rootRecord ⟨[], []⟩ (cs ++ [.saved "http://q\"\\\x01𝄞"]))
        (some Locator.rootRecord) = some "http://q\"\\\x01𝄞" := by
  intro cs
  have hroom := Locator.hasRoom_rootRecord
  exact ⟨hroom, ((load_follows.1 _ _ hroom).2 cs (.saved _) _).2 ⟨rfl, by decide⟩⟩

end LastKnown

end DownloadTriage
