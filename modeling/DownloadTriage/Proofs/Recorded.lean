import DownloadTriage.Proofs.Readers

/-!
# Recorded answers

A model may be a tool that prints answers which were written down before: `cat`, with their names as
arguments, prints them and then the file itself. What it answers is then known from the files alone. If
one of them cannot be read, the rest is printed all the same, but the status tells, and there is no
report.

* `Tool.usage_of_names`: arguments that name files are operands, as they stand.
* `Tool.cat_copies`: what is printed is what is in the files, one after the other.
* `ChildModel.judge_recorded`: the judgement of such a model.
-/

namespace DownloadTriage

open Script

namespace Tool

/-- An argument that names a file: no switch, and not the input. -/
structure IsName (a : Bytes) : Prop where
  notSwitch : a.head? ≠ some (byte '-')
  notInput : a ≠ bytes "/dev/stdin"

/-- Arguments that are no switches are operands. -/
theorem usage_of_names {known : List Switch} {as : List Bytes} (h : ∀ a ∈ as, IsName a) {n : Nat}
    (hn : as.length ≤ n) : usage known n as = .ok ⟨[], as⟩ := by
  induction as generalizing n with
  | nil => cases n <;> rfl
  | cons a as ih =>
    obtain ⟨n, rfl⟩ : ∃ m, n = m + 1 := ⟨n - 1, by simp at hn; omega⟩
    have hrest := ih (fun b hb => h b (List.mem_cons_of_mem _ hb)) (by simpa using hn)
    have ha := (h a List.mem_cons_self).notSwitch
    rw [usage, hrest]
    · rfl
    · rintro rfl
      exact ha rfl
    · rintro text rfl
      exact ha rfl
    · rintro b bs rfl
      exact ha rfl

/-- What is in the file of a name; nothing, if it cannot be read. -/
def contentOf (files : FileTree) (name : Bytes) : Bytes :=
  ((files.read ⟨name⟩).map Array.toList).toOption.getD []

/-- Whether the file of a name can be read. -/
def isReadable (files : FileTree) (name : Bytes) : Bool := (files.read ⟨name⟩).toOption.isSome

/-- A work went on by printing files one after the other. -/
structure Copies (names : List Bytes) (w w' : Work) : Prop where
  files : w'.files = w.files
  time : w'.durationMs = w.durationMs
  output : w'.text .output = w.text .output ++ names.flatMap (contentOf w.files)
  status : w'.status = if names.all (isReadable w.files) then w.status else 1

/-- Print one file. -/
def copy (c : Call) (name : Bytes) : StateM Work Unit := do
  match ← operand name with
  | .ok data => print data
  | .error e => complain c (Quoted.name name ++ bytes ": " ++ refusal e)

/-- The piece that came last is said last. -/
theorem said_reverse_cons (piece : Outlet × Bytes) (pieces : List (Outlet × Bytes)) (o : Outlet) :
    said o (piece :: pieces).reverse =
      said o pieces.reverse ++ if piece.1 = o then piece.2 else [] := by
  simp [said]

theorem operand_run {name : Bytes} (h : IsName name) (w : Work) :
    (operand name).run w = ((w.files.read ⟨name⟩).map Array.toList, w) := by
  have hname : ¬ (name = bytes "-" ∨ name = bytes "/dev/stdin") := by
    rintro (rfl | hinput)
    · exact h.notSwitch rfl
    · exact h.notInput hinput
  rw [operand, if_neg hname]
  rfl

theorem print_copies {name : Bytes} {w : Work} {data : Array UInt8}
    (h : w.files.read ⟨name⟩ = .ok data) : Copies [name] w ((print data.toList).run w).2 := by
  have hcontent : contentOf w.files name = data.toList := by rw [contentOf, h]; rfl
  have hreadable : isReadable w.files name = true := by rw [isReadable, h]; rfl
  have hrun : ((print data.toList).run w).2 =
      if data.toList.isEmpty then w else { w with pieces := (.output, data.toList) :: w.pieces } := rfl
  rw [hrun]
  split
  · rename_i hempty
    exact ⟨rfl, rfl, by simp [hcontent, List.isEmpty_iff.1 hempty], by simp [hreadable]⟩
  · refine ⟨rfl, rfl, ?_, by simp [hreadable]⟩
    rw [List.flatMap_singleton, hcontent]
    exact said_reverse_cons (.output, data.toList) w.pieces .output

theorem complain_copies {name : Bytes} {w : Work} {e : FileError}
    (h : w.files.read ⟨name⟩ = .error e) (c : Call) (text : Bytes) :
    Copies [name] w ((complain c text).run w).2 := by
  have hcontent : contentOf w.files name = [] := by rw [contentOf, h]; rfl
  have hreadable : isReadable w.files name = false := by rw [isReadable, h]; rfl
  refine ⟨rfl, rfl, ?_, by simp [hreadable]; rfl⟩
  rw [List.flatMap_singleton, hcontent]
  exact said_reverse_cons (.errors, c.name ++ bytes ": " ++ text ++ [0x0A]) w.pieces .output

theorem copy_copies {name : Bytes} (c : Call) (h : IsName name) (w : Work) :
    Copies [name] w ((copy c name).run w).2 := by
  have hbind {α β : Type} (x : StateM Work α) (f : α → StateM Work β) :
      (x >>= f).run w = (f (x.run w).1).run (x.run w).2 := rfl
  rw [copy, hbind, operand_run h]
  cases hread : w.files.read ⟨name⟩ with
  | ok data => exact print_copies hread
  | error e => exact complain_copies hread ..

theorem Copies.trans {names others : List Bytes} {w w' w'' : Work} (h : Copies names w w')
    (h' : Copies others w' w'') : Copies (names ++ others) w w'' where
  files := h'.files.trans h.files
  time := h'.time.trans h.time
  output := by rw [h'.output, h.output, h.files, List.flatMap_append, List.append_assoc]
  status := by
    rw [h'.status, h.status, h.files, List.all_append]
    cases names.all (isReadable w.files) <;> cases others.all (isReadable w.files) <;> rfl

/-- **Files are printed one after the other**, and one that cannot be read is left out. -/
theorem copies_forM {names : List Bytes} (c : Call) (h : ∀ name ∈ names, IsName name) (w : Work) :
    Copies names w ((names.forM (copy c)).run w).2 := by
  induction names generalizing w with
  | nil => exact ⟨rfl, rfl, by simp; rfl, rfl⟩
  | cons name names ih =>
    have hfirst := copy_copies c (h name List.mem_cons_self) w
    exact hfirst.trans (ih (fun a ha => h a (List.mem_cons_of_mem _ ha)) _)

theorem cat_copies {c : Call} (h : ∀ name ∈ c.args, IsName name) (hne : c.args ≠ []) (w : Work) :
    Copies c.args w ((cat c).run w).2 := by
  have hcat : cat c = c.args.forM (copy c) := by
    have hsources : sources c.args = c.args := by simp [sources, hne]
    unfold cat withUsage
    dsimp only
    rw [usage_of_names h (Nat.le_succ _)]
    dsimp only
    rw [hsources]
    rfl
  rw [hcat]
  exact copies_forM c h w

end Tool

namespace ChildModel

variable {m : ChildModel} {files : FileTree} {p : Path} {here : Place}

/-- **A model with recorded answers** has for its answer what is in the files that its arguments name,
and in the file itself; and it has none if one of them cannot be read. -/
theorem judge_recorded (hcat : Tool.ofName? (Shell.installedName (bytes m.program)) = some Tool.cat)
    (hargs : ∀ a ∈ m.arguments, Tool.IsName a) (hp : Tool.IsName p.bytes)
    (hn : (m.launch p).hasNul = false) (hat : Host.RunsAt files (m.launch p) here)
    (htime : 0 < m.timeoutMs) (say : Response.Objections) (fp : Option Fingerprint) :
    let seen : FileTree := { files with workingDir := here }
    let names := m.arguments ++ [p.bytes]
    (m.judge say (Host.processes files) p fp).1 =
      if names.all (Tool.isReadable seen) then
        (Response.read say (Utf8.lossy (names.flatMap (Tool.contentOf seen)))).map fun response =>
          response.report (GraphImage.shown files) p.fileName fp
      else .error (.exitStatus (some 1)) := by
  intro seen names
  have hnames : ∀ a ∈ names, Tool.IsName a := by
    intro a ha
    rcases List.mem_append.1 ha with ha | ha
    · exact hargs a ha
    · cases List.mem_singleton.1 ha
      exact hp
  have hne : names ≠ [] := List.append_ne_nil_of_right_ne_nil _ (List.cons_ne_nil _ _)
  obtain ⟨w, hw⟩ : ∃ w, w = Host.workIn Tool.cat files here (m.launch p) := ⟨_, rfl⟩
  have hcopies : Tool.Copies names ⟨seen, [], [], 0, some 0⟩ w := by
    rw [hw]
    exact Tool.cat_copies (c := ⟨bytes m.program, names, [], none⟩) hnames hne _
  have hlaunch := Host.processes_tool hcat hn hat
  rw [← hw] at hlaunch
  have hfiles : (Host.outcome w files.workingDir).files = files := by
    rw [Host.outcome, hcopies.files]
  have hprompt : (Host.outcome w files.workingDir).durationMs.all (m.timeoutMs ≤ ·) = false :=
    prompt_iff.2 ⟨0, hcopies.time, htime⟩
  have hstatus : (Host.outcome w files.workingDir).status =
      .code (if names.all (Tool.isReadable seen) then 0 else 1) := by
    rw [Host.outcome, hcopies.status]
    split <;> rfl
  have houtput : (Host.outcome w files.workingDir).output = names.flatMap (Tool.contentOf seen) :=
    hcopies.output
  cases hall : names.all (Tool.isReadable seen) with
  | true =>
    have hsuccess : (Host.outcome w files.workingDir).status.isSuccess = true := by
      rw [hstatus, hall]
      rfl
    rw [if_pos rfl, judge_of_success hlaunch hprompt hsuccess, houtput, hfiles]
  | false =>
    have hfailed : (Host.outcome w files.workingDir).status.isSuccess = false := by
      rw [hstatus, hall]
      rfl
    rw [if_neg Bool.false_ne_true, judge_of_badStatus hlaunch hprompt hfailed, hstatus, hall]
    rfl

end ChildModel

end DownloadTriage
