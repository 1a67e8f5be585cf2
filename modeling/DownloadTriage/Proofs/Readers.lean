import DownloadTriage.Proofs.Work

/-!
# Tools that only read

Most tools of a host print what they make of files and arguments, and write nothing down: a model that
is one of them leaves every file as it was, whatever it is called with and however it fails.

* `Tool.Reads`: a piece of work that leaves the files alone, with one lemma for each way to put work
  together.
* `Tool.reads_of_mem`: the tools that only read are all but nine.
* `ChildModel.launch_reads`, `judge_reads`: what follows for a model.
-/

namespace DownloadTriage

open Script

namespace Tool

variable {α β : Type}

/-- A piece of work that leaves the files alone. -/
structure Reads (x : StateM Work α) : Prop where
  same (w : Work) : (x.run w).2.files = w.files

namespace Reads

variable {x : StateM Work α} {f : α → StateM Work β}

theorem pure (a : α) : Reads (Pure.pure a : StateM Work α) := ⟨fun _ => rfl⟩

theorem bind (hx : Reads x) (hf : ∀ a, Reads (f a)) : Reads (x >>= f) :=
  ⟨fun w => ((hf (x.run w).1).same (x.run w).2).trans (hx.same w)⟩

theorem modify {g : Work → Work} (h : ∀ w, (g w).files = w.files) :
    Reads (modify g : StateM Work Unit) := ⟨h⟩

theorem ite {p : Prop} [Decidable p] {y : StateM Work α} (hx : Reads x) (hy : Reads y) :
    Reads (if p then x else y) := by
  split
  · exact hx
  · exact hy

theorem forM {f : α → StateM Work PUnit} (h : ∀ a, Reads (f a)) (as : List α) :
    Reads (as.forM f) := by
  induction as with
  | nil => exact pure _
  | cons a as ih => exact bind (h a) fun _ => ih

theorem foldlM {f : β → α → StateM Work β} (h : ∀ b a, Reads (f b a)) (b : β) (as : List α) :
    Reads (as.foldlM f b) := by
  induction as generalizing b with
  | nil => exact pure _
  | cons a as ih => exact bind (h b a) fun b => ih b

theorem mapM (h : ∀ a, Reads (f a)) (as : List α) : Reads (as.mapM f) := by
  induction as with
  | nil => exact pure _
  | cons a as ih =>
    rw [List.mapM_cons]
    exact bind (h a) fun b => bind ih fun bs => pure _

theorem print (bs : Bytes) : Reads (Tool.print bs) := modify fun w => by split <;> rfl

theorem printLine (bs : Bytes) : Reads (Tool.printLine bs) := print _

theorem endWith (n : Nat) : Reads (Tool.endWith n) := modify fun _ => rfl

theorem say (c : Call) (text : Bytes) : Reads (Tool.say c text) := modify fun _ => rfl

theorem complainWith (n : Nat) (c : Call) (text : Bytes) : Reads (Tool.complainWith n c text) :=
  bind (say c text) fun _ => endWith n

theorem complain (c : Call) (text : Bytes) : Reads (Tool.complain c text) := complainWith 1 c text

theorem misused (n : Nat) (c : Call) (text : Bytes) : Reads (Tool.misused n c text) :=
  bind (complainWith n c text) fun _ => modify fun _ => rfl

theorem files : Reads Tool.files := ⟨fun _ => rfl⟩

theorem takeInput : Reads Tool.takeInput := ⟨fun _ => rfl⟩

theorem operand (name : Bytes) : Reads (Tool.operand name) := by
  unfold Tool.operand
  split
  · exact bind takeInput fun _ => pure _
  · exact bind files fun _ => pure _

/-- The usage of a call is no work. -/
theorem withUsage {n : Nat} {known : List Switch} {act : Usage → Tool} {c : Call}
    (h : ∀ u, Reads (act u c)) : Reads (Tool.withUsage n known act c) := by
  unfold Tool.withUsage
  split
  · exact h _
  · exact printLine _
  · exact misused ..

/-- Work that depends on what is in a file. -/
theorem ofOperand {f : Except FileError Bytes → StateM Work β} (name : Bytes)
    (hok : ∀ data, Reads (f (.ok data))) (herror : ∀ e, Reads (f (.error e))) :
    Reads (Tool.operand name >>= f) :=
  bind (operand name) fun r => match r with
    | .ok data => hok data
    | .error e => herror e

end Reads

variable (c : Call)

/-! ## Texts and questions -/

theorem verdict_reads (status : Nat) : Reads (verdict status c) := by
  unfold verdict
  dsimp only
  split
  · split
    · exact .bind (.printLine _) fun _ => .endWith _
    · exact .endWith _
  · exact .endWith _

theorem echo_reads : Reads (echo c) := .print _

theorem printf_reads : Reads (printf c) := by
  unfold printf
  split
  · exact .misused ..
  · exact .bind (.print _) fun _ => .forM (fun _ => .complain ..) _

theorem test_reads : Reads (test c) := by
  unfold test
  dsimp only
  split
  · exact .complainWith ..
  · refine .bind .files fun t => ?_
    split
    · exact .endWith _
    · exact .complainWith ..

theorem pwd_reads : Reads (pwd c) := by
  unfold pwd
  dsimp only
  split
  · exact .bind (.say ..) fun _ => .bind .files fun _ => .printLine _
  · exact .bind .files fun _ => .printLine _

theorem sleep_reads : Reads (sleep c) := by
  refine .withUsage fun u => ?_
  split
  · exact .misused ..
  split
  · exact .bind (.forM (fun _ => .complain ..) _) fun _ => .misused ..
  · exact .modify fun _ => rfl

theorem printenv_reads : Reads (printenv c) := by
  unfold printenv
  split
  · exact .forM (fun _ => .printLine _) _
  · refine .forM (fun n => ?_) _
    split
    · exact .printLine _
    · exact .endWith _

theorem expr_reads : Reads (expr c) := by
  unfold expr
  dsimp only
  split
  · exact .bind (.printLine _) fun _ => .endWith _
  · exact .misused ..
  · exact .complainWith ..

theorem seq_reads : Reads (seq c) := by
  refine .withUsage fun u => ?_
  dsimp only
  split
  · exact .misused ..
  split
  · exact .misused ..
  · exact .ite (.printLine _) (.pure _)
  · exact .ite (.printLine _) (.pure _)
  · exact .ite (.printLine _) (.pure _)
  · exact .misused ..

theorem basename_reads : Reads (basename c) := by
  unfold basename
  refine .withUsage fun u => ?_
  dsimp only
  split
  · exact .misused ..
  split
  · exact .forM (fun _ => .printLine _) _
  split
  · exact .printLine _
  · exact .printLine _
  · exact .misused ..

theorem dirname_reads : Reads (dirname c) := by
  refine .withUsage fun u => ?_
  dsimp only
  split
  · exact .misused ..
  · exact .forM (fun _ => .printLine _) _

/-! ## Files one after the other -/

theorem cat_reads : Reads (cat c) := by
  unfold cat
  refine .withUsage fun u => ?_
  split
  · exact .forM (fun name => .ofOperand name (fun _ => .print _) fun _ => .complain ..) _
  · refine .bind (.foldlM (fun all name => .ofOperand name ?_ ?_) _ _) fun _ => .print _
    · exact fun data => .pure _
    · exact fun e => .bind (.complain ..) fun _ => .pure _

theorem reversed_reads (known : List Switch) (turn : Bytes → Bytes)
    (failure : Bytes → FileError → Bytes) : Reads (reversed known turn failure c) :=
  .withUsage fun _ => .forM (fun name => .ofOperand name (fun _ => .print _) fun _ => .complain ..) _

theorem digests_reads (digest : Bytes → String) : Reads (digests digest c) :=
  .withUsage fun _ =>
    .forM (fun name => .ofOperand name (fun _ => .printLine _) fun _ => .complain ..) _

theorem portions_reads (portionOf : Bytes → Option Portion) (usual : Portion) :
    Reads (portions portionOf usual c) := by
  refine .withUsage fun u => ?_
  split
  · exact .complain ..
  · dsimp only
    refine .bind (.foldlM (fun first name => .ofOperand name ?_ ?_) _ _) fun _ => .pure _
    · exact fun data => .bind (.ite (.print _) (.pure _)) fun _ => .bind (.print _) fun _ => .pure _
    · intro e
      cases e with
      | isDirectory =>
        exact .bind (.ite (.print _) (.pure _)) fun _ => .bind (.complain ..) fun _ => .pure _
      | notFound | notDirectory | nameTooLong | nulInPath =>
        exact .bind (.complain ..) fun _ => .pure _

theorem wc_reads : Reads (wc c) := by
  unfold wc
  refine .withUsage fun u => .bind .files fun t => ?_
  dsimp only
  refine .bind (.foldlM (fun sum name => .ofOperand name ?_ ?_) _ _) fun _ => ?_
  · exact fun data => .bind (.printLine _) fun _ => .pure _
  · exact fun e => .bind (.complain ..) fun _ =>
      .ite (.bind (.printLine _) fun _ => .pure _) (.pure _)
  · exact .ite (.printLine _) (.pure _)

theorem gather_reads (names : List Bytes) (failure : Bytes → FileError → Bytes) :
    Reads (gather c names failure) := by
  refine .foldlM (fun all name => .ofOperand name ?_ ?_) _ _
  · exact fun data => .pure _
  · exact fun e => .bind (.complain ..) fun _ => .pure _

theorem tr_reads : Reads (tr c) := by
  unfold tr
  refine .withUsage fun u => ?_
  dsimp only
  split
  · exact .misused ..
  · exact .misused ..
  split
  · exact .misused ..
  split
  · exact .bind .takeInput fun _ => .print _
  split
  · split
    · exact .bind .takeInput fun _ => .print _
    · exact .misused ..
  · exact .bind .takeInput fun _ => .print _

theorem uniq_reads : Reads (uniq c) := by
  unfold uniq
  exact .withUsage fun _ => .bind (gather_reads ..) fun _ => .print _

theorem cut_reads : Reads (cut c) := by
  unfold cut
  refine .withUsage fun u => ?_
  dsimp only
  split
  · exact .misused ..
  · exact .bind (gather_reads ..) fun _ => .print _

theorem base64_reads : Reads (base64 c) := by
  unfold base64
  refine .withUsage fun u => .bind (gather_reads ..) fun data => ?_
  split
  · split
    · exact .print _
    · exact .complain ..
  · dsimp only
    split
    · exact .print _
    · exact .forM (fun _ => .printLine _) _

/-! ## Directories and lines -/

theorem ls_reads : Reads (ls c) := by
  have hlist (names : List Bytes) (shown : Bytes → Bytes) :
      Reads (names.forM fun n => printLine (shown n)) := .forM (fun _ => .printLine _) _
  have hrows {backwards : Bool} {before inside after : List Bytes} {f g h : Bytes → Bytes} :
      Reads (do
        if !backwards then before.forM fun n => printLine (f n)
        inside.forM fun n => printLine (g n)
        if backwards then after.forM fun n => printLine (h n)) :=
    .ite (.bind (hlist ..) fun _ => .bind (hlist ..) fun _ => .ite (hlist ..) (.pure _))
      (.bind (hlist ..) fun _ => .ite (hlist ..) (.pure _))
  unfold ls
  refine .withUsage fun u => .bind .files fun t => .bind (.forM (fun p => ?_) _) fun _ => ?_
  · split
    · exact .complainWith ..
    · exact .pure _
  dsimp only
  refine .bind (hlist ..) fun _ => .bind (.foldlM (fun first p => ?_) _ _) fun _ => .pure _
  refine .ite (.bind (.print _) fun _ => ?_) ?_
  · split
    · exact .bind hrows fun _ => .pure _
    · exact .pure _
  · split
    · exact .bind hrows fun _ => .pure _
    · exact .pure _

theorem quest?_reads (u : Usage) : Reads (quest? u) := by
  refine .bind (.mapM (fun s => ?_) _) fun _ => .pure _
  split
  · exact .pure _
  · exact .ofOperand _ (fun _ => .pure _) fun _ => .pure _

theorem showRows_reads (u : Usage) (q : Quest) (s : Search) (title : Bytes) (shown : Bool)
    (rs : List Row) : Reads (showRows u q s title shown rs) := by
  unfold showRows
  dsimp only
  refine .bind (.foldlM (fun previous r => ?_) _ _) fun _ => .pure _
  have hrow {text : Bytes} : Reads (do printLine text; return some r.number) :=
    .bind (.printLine _) fun _ => .pure _
  have hparts {parts : List (Nat × Bytes)} {shown : Nat × Bytes → Bytes} :
      Reads (do parts.forM fun x => printLine (shown x); return some r.number) :=
    .bind (.forM (fun _ => .printLine _) _) fun _ => .pure _
  exact .ite (.bind (.printLine _) fun _ => .ite (.ite hparts (.pure _)) hrow)
    (.ite (.ite hparts (.pure _)) hrow)

theorem searchIn_reads (u : Usage) (q : Quest) (s : Search) (titled : Bool) (p : Progress)
    (name : Bytes) : Reads (searchIn u q s c titled p name) := by
  unfold searchIn
  split
  · exact .pure _
  refine .ofOperand name (fun data => ?_) fun e => ?_
  · dsimp only
    split
    · exact .pure _
    split
    · exact .ite (.bind (.printLine _) fun _ => .pure _) (.pure _)
    split
    · exact .bind (.printLine _) fun _ => .pure _
    split
    · exact .ite (.bind (.say ..) fun _ => .pure _) (.pure _)
    · exact .bind (showRows_reads ..) fun _ => .pure _
  · exact .ite (.bind (.say ..) fun _ => .pure _) (.pure _)

theorem grep_reads : Reads (grep c) := by
  have hmisused (text : Bytes) : Reads (misusedSearch c text) :=
    .ite (.bind (.say ..) fun _ => .modify fun _ => rfl) (.modify fun _ => rfl)
  unfold grep
  dsimp only
  split
  · exact .printLine _
  · exact hmisused _
  split
  · exact hmisused _
  refine .bind (quest?_reads _) fun r => ?_
  split
  · exact .complainWith ..
  split
  · exact .complainWith ..
  refine .bind .files fun t => .bind (.foldlM (fun p name => searchIn_reads ..) _ _) fun p => ?_
  exact .ite (.endWith _) (.ite (.endWith _) (.ite (.endWith _) (.pure _)))

/-! ## All of them -/

/-- The names of the tools that may change files. -/
def writers : List String :=
  ["sort", "tee", "rm", "rmdir", "mkdir", "touch", "mv", "cp", "sed"]

/-- **Every other tool only reads.** -/
theorem reads_of_mem : ∀ t ∈ all, t.1 ∉ writers → ∀ c, Reads (t.2 c) := by
  unfold all
  simp only [List.forall_mem_cons]
  have hwriter {name : String} {t : Tool} (h : name ∈ writers) :
      name ∉ writers → ∀ c, Reads (t c) := fun hnot => absurd h hnot
  exact ⟨fun _ c => verdict_reads c 0, fun _ c => verdict_reads c 1, fun _ => echo_reads,
    fun _ => printf_reads, fun _ => test_reads, fun _ => test_reads, fun _ => pwd_reads,
    fun _ => sleep_reads, fun _ => printenv_reads, fun _ => cat_reads,
    fun _ c => reversed_reads c .., fun _ c => reversed_reads c .., fun _ c => portions_reads c ..,
    fun _ c => portions_reads c .., fun _ => wc_reads, fun _ => tr_reads, hwriter (by decide),
    fun _ => uniq_reads, fun _ => cut_reads, hwriter (by decide), fun _ => seq_reads,
    fun _ => basename_reads, fun _ => dirname_reads, fun _ => base64_reads,
    fun _ c => digests_reads c _, fun _ c => digests_reads c _, hwriter (by decide),
    hwriter (by decide), hwriter (by decide), hwriter (by decide), hwriter (by decide),
    hwriter (by decide), fun _ => ls_reads, fun _ => grep_reads, hwriter (by decide),
    fun _ => expr_reads, nofun⟩

theorem reads_of_ofName? {name : Bytes} {t : Tool} (h : ofName? name = some t)
    (hname : ∀ w ∈ writers, name ≠ bytes w) (c : Call) : Reads (t c) := by
  obtain ⟨u, hu, rfl⟩ := Option.map_eq_some_iff.1 h
  have hu' : bytes u.1 = name := by simpa using List.find?_some hu
  exact reads_of_mem u (List.mem_of_find?_eq_some hu) (fun hw => hname u.1 hw hu'.symm) c

end Tool

/-! ## The model -/

namespace ChildModel

variable {m : ChildModel} {t : Tool} {files : FileTree} {p : Path}

/-- **A model that is a tool which only reads leaves every file as it was**, also if it fails or never
ends. -/
theorem launch_reads (h : Tool.ofName? (Shell.installedName (bytes m.program)) = some t)
    (hname : ∀ w ∈ Tool.writers, Shell.installedName (bytes m.program) ≠ bytes w) {r : ProcessResult}
    (hlaunch : Host.processes files (m.launch p) = .ok r) : r.files = files := by
  obtain ⟨-, here, -, hrun⟩ := Host.exists_runsAt hlaunch
  rw [Host.runIn_tool h] at hrun
  cases hrun
  have hsame : (Host.workIn t files here (m.launch p)).files = { files with workingDir := here } :=
    (Tool.reads_of_ofName? h hname _).same _
  rw [Host.outcome, hsame]

/-- So what its report refers to is looked for among the files that were there before. -/
theorem judge_reads (h : Tool.ofName? (Shell.installedName (bytes m.program)) = some t)
    (hname : ∀ w ∈ Tool.writers, Shell.installedName (bytes m.program) ≠ bytes w)
    {say : Response.Objections} {fp : Option Fingerprint} {report : Report}
    (hreport : (m.judge say (Host.processes files) p fp).1 = .ok report) :
    ∃ response : Response, response.report (GraphImage.shown files) p.fileName fp = report := by
  obtain ⟨r, ms, response, hlaunch, -, -, -, -, hshown⟩ := judge_eq_ok_iff.1 hreport
  rw [launch_reads h hname hlaunch] at hshown
  exact ⟨response, hshown⟩

end ChildModel

end DownloadTriage
