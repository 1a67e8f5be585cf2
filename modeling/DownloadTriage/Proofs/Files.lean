import DownloadTriage.Collector.LastKnown

/-!
# What a path leads to after a write

A write to a path puts a file where its last name stands. The directories on the way are none of it,
so the path still leads there, and what was written is read. A device takes what is written and
stays as it is.

* `content_write`: the content of what was written.
* `LastKnown.content_save`: the content of a record, which is written whole or not at all.
-/

namespace DownloadTriage

/-! ## The last name of a path -/

/-- A path that ends in a name, and does not say that it names a directory, leads to that name. -/
theorem Path.names_of_lastStep {p : Path} {name : List UInt8} (h : p.lastStep? = some name)
    (hd : FileTree.namesDirectory p = false) :
    p.names = p.names.dropLast ++ [name] ∧ name ≠ parentName := by
  obtain ⟨hfind, hname⟩ := Option.filter_eq_some_iff.1 h
  have hparent : name ≠ parentName := by simpa using (of_decide_eq_true hname).2
  refine ⟨?_, hparent⟩
  unfold FileTree.namesDirectory at hd
  cases hp : (pieces p.bytes).getLast? with
  | none =>
    rw [List.getLast?_eq_none_iff.1 hp] at hfind
    cases hfind
  | some last =>
    rw [hp] at hd
    obtain ⟨front, hfront⟩ := List.getLast?_eq_some_iff.1 hp
    have hl : last ≠ [] ∧ last ≠ [0x2E] := by simpa using hd
    -- the last piece is a name, so it is the last step and the last of the names
    have hlast : name = last := by
      rw [hfront] at hfind
      simpa [hl.1, eq_comm] using hfind
    unfold names
    rw [hfront, List.filter_append, hlast]
    simp [hl]

namespace FileTree

variable {t t' : FileTree} {here dir : Place} {ns : List (List UInt8)} {name : List UInt8}

/-! ## Following names -/

theorem lookup_filter_ne (nodes : List (Place × Node)) {other : Place} (h : other ≠ here) :
    (nodes.filter (·.1 ≠ here)).lookup other = nodes.lookup other := by
  induction nodes with
  | nil => rfl
  | cons m nodes ih =>
    by_cases hm : m.1 = here
    · rw [List.filter_cons_of_neg (by simpa using hm), ih, List.lookup_cons,
        beq_false_of_ne (hm ▸ h)]
    · rw [List.filter_cons_of_pos (by simpa using hm), List.lookup_cons, List.lookup_cons, ih]

theorem node?_put_of_ne (t : FileTree) (n : Node) {other : Place} (h : other ≠ here) :
    (t.put here n).node? other = t.node? other := by
  unfold node? put
  by_cases ho : other = []
  · rw [if_pos ho, if_pos ho]
  · rw [if_neg ho, if_neg ho, List.lookup_cons, beq_false_of_ne h]
    exact lookup_filter_ne _ h

/-- Names are followed one after the other. -/
theorem follow_append (t : FileTree) (here : Place) (ns ms : List (List UInt8)) :
    t.follow here (ns ++ ms) = (t.follow here ns).bind fun dir => t.follow dir ms := by
  induction ns generalizing here with
  | nil => rfl
  | cons n ns ih =>
    rw [List.cons_append, follow, follow]
    split
    · rfl
    · split
      · exact ih _
      · split
        · rfl
        · exact ih _
    · rfl

/-- To put something in the place of no directory leads nobody astray. -/
theorem follow_put {n : Node} (h : t.node? here ≠ some .directory) {start : Place}
    (hf : t.follow start ns = .ok dir) : (t.put here n).follow start ns = .ok dir := by
  induction ns generalizing start with
  | nil => exact hf
  | cons m ns ih =>
    rw [follow] at hf ⊢
    cases hn : t.node? start with
    | none => rw [hn] at hf; cases hf
    | some k =>
      cases k with
      | file c => rw [hn] at hf; cases hf
      | device => rw [hn] at hf; cases hf
      | directory =>
        have hne : start ≠ here := fun he => h (he ▸ hn)
        rw [hn] at hf
        rw [node?_put_of_ne t n hne, hn]
        dsimp only at hf ⊢
        split at hf
        · rename_i hp
          rw [if_pos hp]
          exact ih hf
        · rename_i hp
          rw [if_neg hp]
          split at hf
          · cases hf
          · rename_i hl
            rw [if_neg hl]
            exact ih hf

/-! ## Entries -/

/-- **Where a path has its entry**: below a directory that the names before the last lead to. -/
theorem entry_eq_ok {p : Path} (h : t.entry p = .ok here) : ∃ start dir name,
    t.start p = .ok start ∧ t.follow start p.names.dropLast = .ok dir ∧
    t.node? dir = some .directory ∧ p.lastStep? = some name ∧ namesDirectory p = false ∧
    isLong name = false ∧ here = dir ++ [name] := by
  unfold entry at h
  cases hl : p.lastStep? with
  | none =>
    rw [hl] at h
    cases hk : t.look p <;> rw [hk] at h <;> cases h
  | some name =>
    rw [hl] at h
    cases hs : t.start p with
    | error e => rw [hs] at h; cases h
    | ok start =>
      cases hf : t.follow start p.names.dropLast with
      | error e => simp [hs, hf, bind, Except.bind] at h
      | ok dir =>
        simp only [hs, hf, bind, Except.bind] at h
        refine ⟨start, dir, name, rfl, hf, ?_⟩
        split at h
        · cases h
        · rename_i hd
          split at h
          · cases h
          · rename_i hnd
            split at h
            · cases h
            · rename_i hlong
              exact ⟨hd, rfl, by simpa using hnd, by simpa using hlong, (Except.ok.inj h).symm⟩
        · cases h

/-- What is put where a path has its entry is what the path leads to. -/
theorem look_put {p : Path} {n : Node} (h : t.entry p = .ok here)
    (hn : t.node? here ≠ some .directory) : (t.put here n).look p = .ok (here, n) := by
  obtain ⟨start, dir, name, hs, hf, hd, hl, hnd, hlong, rfl⟩ := entry_eq_ok h
  obtain ⟨hnames, hparent⟩ := Path.names_of_lastStep hl hnd
  have hdir : (t.put (dir ++ [name]) n).node? dir = some .directory := by
    rw [node?_put_of_ne t n (by simp), hd]
  have hplace : (t.put (dir ++ [name]) n).place p = .ok (dir ++ [name]) := by
    show (t.start p).bind _ = _
    rw [hs]
    show follow _ start p.names = _
    rw [hnames, follow_append, follow_put hn hf]
    show follow _ dir [name] = _
    rw [follow, hdir]
    dsimp only
    rw [if_neg hparent, if_neg (by simp [hlong])]
    rfl
  unfold look
  rw [hplace]
  dsimp only [bind, Except.bind]
  rw [node?_put_self _ _ (by simp)]
  simp [hnd]

/-- **The content of what was written**, unless it was a device that took it. -/
theorem content_write {p : Path} {data : Array UInt8} (h : t.write p data = .ok t') :
    t' = t ∨ t'.content p = .ok (.bytes data) := by
  unfold write at h
  cases he : t.entry p with
  | error e => rw [he] at h; cases h
  | ok here =>
    simp only [he, bind, Except.bind] at h
    split at h
    · cases h
    · exact .inl (Except.ok.inj h).symm
    · rename_i hnd hdev
      obtain rfl := (Except.ok.inj h).symm
      refine .inr ?_
      unfold content
      rw [look_put he hnd]
      rfl

end FileTree

/-- **A record is written whole**, or the files stay as they are. -/
theorem LastKnown.content_save (t : FileTree) (url : String) (p : Path) :
    (save t url (some p)).1 = t ∨
      (save t url (some p)).1.content p = .ok (.bytes (encode url).toArray) := by
  unfold save
  dsimp only
  cases hw : t.write p (encode url).toArray with
  | error e => exact .inl rfl
  | ok files => exact FileTree.content_write hw

end DownloadTriage
