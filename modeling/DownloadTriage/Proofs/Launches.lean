import DownloadTriage.Model.Child
import DownloadTriage.Process.Host

/-!
# When a model can be launched

A host refuses a launch for what the launch says, before anything runs: a zero byte, a directory that is
none, a program that is not installed (`Host.Refuses`). Everything else is launched and comes to an end
or to none, and then the model is judged by its time, its status and what it printed.

* `Host.processes_eq_error_iff`: the launches that are refused, and why.
* `ChildModel.judge_eq_error_iff`, `judge_eq_ok_iff`: how a judgement ends, on every host.
* `ChildModel.judge_unavailable_iff`: a model is unavailable exactly if its launch is refused.
* `ChildModel.judge_notInstalled`: so is every model whose program is not installed.
* `ChildModel.judge_exitStatus`: a status that is told is a byte, and none of success.
-/

namespace DownloadTriage

open Script

namespace Shell

/-- Why a program that is not installed cannot be started: a path may lead to something that is no
program, or to nothing. -/
def lack (files : FileTree) (name : Bytes) : Option FileError :=
  if name.contains Path.separator then
    match files.look ⟨name⟩ with
    | .ok _ => none
    | .error e => some e
  else if name = bytes "." ∨ name = bytes ".." then none
  else some .notFound

/-- Why a program cannot be started, on a host where no file was made a program. -/
theorem program?_eq_error_iff {s : Session} {name : Bytes} {why : Option FileError}
    (h : s.programs = []) :
    program? s name = .error why ↔ isInstalled name = false ∧ why = lack s.files name := by
  unfold program? isInstalled
  dsimp only
  split
  · rename_i hshell
    rw [hshell, Bool.true_or, Bool.true_or]
    exact ⟨nofun, nofun⟩
  split
  · rename_i hrunner
    rw [hrunner, Bool.or_true, Bool.true_or]
    exact ⟨nofun, nofun⟩
  rename_i hshell hrunner
  split
  · rename_i t htool
    rw [htool, Option.isSome_some, Bool.or_true]
    exact ⟨nofun, nofun⟩
  rename_i htool
  rw [Bool.not_eq_true] at hshell hrunner
  rw [hshell, hrunner, htool]
  simp only [Bool.false_or, Option.isSome_none, true_and, lack]
  split
  · split <;> rename_i hlook <;> simp [hlook, h, eq_comm]
  · split <;> simp [eq_comm]

end Shell

/-! ## Refusals -/

namespace Host

variable {files : FileTree} {l : Launch} {here : Place} {e : LaunchError}

/-- The place in which a launch runs. -/
inductive RunsAt (files : FileTree) (l : Launch) : Place → Prop
  | here (h : l.directory = none) : RunsAt files l files.workingDir
  | there {dir : Path} {here : Place} (h : l.directory = some dir)
      (hlook : files.look dir = .ok (here, .directory)) : RunsAt files l here

/-- The words for a program that cannot be started. -/
def lacking : Option FileError → LaunchError
  | none => .permissionDenied
  | some e => .file e

/-- **Why a launch is refused.** -/
inductive Refuses (files : FileTree) (l : Launch) : LaunchError → Prop
  | nul (h : l.hasNul = true) : Refuses files l .nulByte
  | lost {dir : Path} {e : FileError} (hn : l.hasNul = false) (h : l.directory = some dir)
      (hlook : files.look dir = .error e) : Refuses files l (.file e)
  | noDirectory {dir : Path} {here : Place} {n : Node} (hn : l.hasNul = false)
      (h : l.directory = some dir) (hlook : files.look dir = .ok (here, n))
      (hnode : n ≠ .directory) : Refuses files l (.file .notDirectory)
  | notInstalled {here : Place} (hn : l.hasNul = false) (hrun : RunsAt files l here)
      (h : Shell.isInstalled (bytes l.program) = false) :
      Refuses files l (lacking (Shell.lack { files with workingDir := here } (bytes l.program)))

theorem runIn_eq_error_iff : runIn files here l = .error e ↔
    Shell.isInstalled (bytes l.program) = false ∧
      e = lacking (Shell.lack { files with workingDir := here } (bytes l.program)) := by
  have hprogram (why : Option FileError) :
      Shell.program? (starting files here).session (bytes l.program) = .error why ↔
        Shell.isInstalled (bytes l.program) = false ∧
          why = Shell.lack { files with workingDir := here } (bytes l.program) :=
    Shell.program?_eq_error_iff rfl
  unfold runIn
  dsimp only
  split
  · rename_i hp
    obtain ⟨hname, hwhy⟩ := (hprogram _).1 hp
    simp [hname, ← hwhy, lacking, eq_comm]
  · rename_i why hp
    obtain ⟨hname, hwhy⟩ := (hprogram _).1 hp
    simp [hname, ← hwhy, lacking, eq_comm]
  · rename_i program hp
    -- a program that can be started is installed
    have hinstalled : Shell.isInstalled (bytes l.program) ≠ false := fun hname =>
      nomatch hp.symm.trans ((hprogram _).2 ⟨hname, rfl⟩)
    simp [hinstalled]

theorem processes_of_runsAt (hn : l.hasNul = false) (h : RunsAt files l here) :
    processes files l = runIn files here l := by
  cases h with
  | here h => simp only [processes, hn, h, Bool.false_eq_true, if_false]
  | there h hlook => simp only [processes, hn, h, hlook, Bool.false_eq_true, if_false]

theorem Refuses.processes_eq (h : Refuses files l e) : processes files l = .error e := by
  cases h with
  | nul h => simp only [processes, h, if_true]
  | lost hn h hlook => simp only [processes, hn, h, hlook, Bool.false_eq_true, if_false]
  | @noDirectory _ _ node hn h hlook hnode =>
    cases node with
    | directory => exact absurd rfl hnode
    | file _ | device => simp only [processes, hn, h, hlook, Bool.false_eq_true, if_false]
  | notInstalled hn hat h => exact processes_of_runsAt hn hat ▸ runIn_eq_error_iff.2 ⟨h, rfl⟩

/-- A launch is refused, or there is a place to run in. -/
theorem refuses_or_runsAt (files : FileTree) (l : Launch) :
    (∃ e, Refuses files l e) ∨ l.hasNul = false ∧ ∃ here, RunsAt files l here := by
  cases hn : l.hasNul with
  | true => exact .inl ⟨_, .nul hn⟩
  | false =>
    cases hd : l.directory with
    | none => exact .inr ⟨rfl, _, .here hd⟩
    | some dir =>
      cases hlook : files.look dir with
      | error e => exact .inl ⟨_, .lost hn hd hlook⟩
      | ok found =>
        by_cases hnode : found.2 = .directory
        · exact .inr ⟨rfl, _, .there hd (by rw [hlook, ← hnode])⟩
        · exact .inl ⟨_, .noDirectory hn hd hlook hnode⟩

/-- **Which launches are refused, and why.** -/
theorem processes_eq_error_iff : processes files l = .error e ↔ Refuses files l e := by
  refine ⟨fun h => ?_, Refuses.processes_eq⟩
  rcases refuses_or_runsAt files l with ⟨e', he'⟩ | ⟨hn, here, hat⟩
  · cases h.symm.trans he'.processes_eq
    exact he'
  · rw [processes_of_runsAt hn hat, runIn_eq_error_iff] at h
    obtain ⟨hname, rfl⟩ := h
    exact .notInstalled hn hat hname

/-- What was launched ran in a place. -/
theorem exists_runsAt {r : ProcessResult} (h : processes files l = .ok r) :
    l.hasNul = false ∧ ∃ here, RunsAt files l here ∧ runIn files here l = .ok r := by
  rcases refuses_or_runsAt files l with ⟨e, he⟩ | ⟨hn, here, hat⟩
  · cases h.symm.trans he.processes_eq
  · exact ⟨hn, here, hat, processes_of_runsAt hn hat ▸ h⟩

/-- What is not installed is not launched, wherever it is to run. -/
theorem exists_refuses (h : Shell.isInstalled (bytes l.program) = false) :
    ∃ e, Refuses files l e := by
  rcases refuses_or_runsAt files l with hrefused | ⟨hn, here, hat⟩
  · exact hrefused
  · exact ⟨_, .notInstalled hn hat h⟩

/-- The status of a process that was launched is a byte. -/
theorem code_lt {r : ProcessResult} {n : Nat} (h : processes files l = .ok r)
    (hcode : r.status.code? = some n) : n < 256 := by
  obtain ⟨-, here, -, hrun⟩ := exists_runsAt h
  unfold runIn at hrun
  dsimp only at hrun
  split at hrun
  · cases hrun
  · cases hrun
  · cases hrun
    simp only [result] at hcode
    split at hcode
    · cases hcode
    · cases hcode
      exact Nat.mod_lt _ (by decide)

end Host

/-! ## The model -/

namespace ChildModel

variable {m : ChildModel} {say : Response.Objections} {files : FileTree} {p : Path}
  {fp : Option Fingerprint}

/-- What a model printed decides between a report, an error that it reports, and no response. -/
theorem read_eq_error {output : String} {e : ModelError}
    (h : Response.read say output = .error e) :
    (∃ reason, e = .invalidResponse reason) ∨ ∃ text, e = .reported text := by
  unfold Response.read at h
  split at h
  · cases h
    exact .inl ⟨_, rfl⟩
  split at h
  · cases h
    exact .inr ⟨_, rfl⟩
  split at h
  · cases h
  · cases h
    exact .inl ⟨_, rfl⟩

/-- **Every way in which a judgement fails**: a refusal, a late end, a bad status, or what the model
printed. -/
inductive Fails (m : ChildModel) (say : Response.Objections) (host : Processes) (p : Path) :
    ModelError → Prop
  | refused {e : LaunchError} (h : host (m.launch p) = .error e) :
      Fails m say host p (.unavailable (m.program ++ ": " ++ e.message))
  | late {r : ProcessResult} (h : host (m.launch p) = .ok r)
      (hlate : ∀ ms, r.durationMs = some ms → m.timeoutMs ≤ ms) :
      Fails m say host p (.timeout (m.timeoutMs * 1000000))
  | badStatus {r : ProcessResult} {ms : Nat} (h : host (m.launch p) = .ok r)
      (hms : r.durationMs = some ms) (hprompt : ms < m.timeoutMs)
      (hstatus : r.status ≠ .code 0) :
      Fails m say host p (.exitStatus (r.status.code?.map Int.ofNat))
  | badAnswer {r : ProcessResult} {ms : Nat} {e : ModelError} (h : host (m.launch p) = .ok r)
      (hms : r.durationMs = some ms) (hprompt : ms < m.timeoutMs) (hstatus : r.status = .code 0)
      (hread : Response.read say (Utf8.lossy r.output) = .error e) : Fails m say host p e

theorem late_iff {d : Option Nat} {limit : Nat} :
    d.all (limit ≤ ·) = true ↔ ∀ ms, d = some ms → limit ≤ ms := by
  cases d <;> simp

theorem prompt_iff {d : Option Nat} {limit : Nat} :
    d.all (limit ≤ ·) = false ↔ ∃ ms, d = some ms ∧ ms < limit := by
  cases d <;> simp

theorem isSuccess_iff {status : ExitStatus} : status.isSuccess = true ↔ status = .code 0 := by
  cases status <;> simp [ExitStatus.isSuccess]

section Outcomes

variable {host : Processes} {r : ProcessResult}

theorem judge_of_refused {e : LaunchError} (h : host (m.launch p) = .error e) :
    (m.judge say host p fp).1 = .error (.unavailable (m.program ++ ": " ++ e.message)) := by
  simp only [judge, answer, h]
  rfl

theorem judge_of_late (h : host (m.launch p) = .ok r)
    (hlate : r.durationMs.all (m.timeoutMs ≤ ·) = true) :
    (m.judge say host p fp).1 = .error (.timeout (m.timeoutMs * 1000000)) := by
  simp only [judge, answer, h, hlate, if_true]
  rfl

theorem judge_of_badStatus (h : host (m.launch p) = .ok r)
    (hprompt : r.durationMs.all (m.timeoutMs ≤ ·) = false) (hstatus : r.status.isSuccess = false) :
    (m.judge say host p fp).1 = .error (.exitStatus (r.status.code?.map Int.ofNat)) := by
  simp only [judge, answer, h, hprompt, hstatus, Bool.false_eq_true, if_false]
  rfl

/-- A process that ended in time and well is judged by what it printed. -/
theorem judge_of_success (h : host (m.launch p) = .ok r)
    (hprompt : r.durationMs.all (m.timeoutMs ≤ ·) = false) (hstatus : r.status.isSuccess = true) :
    (m.judge say host p fp).1 = (Response.read say (Utf8.lossy r.output)).map fun response =>
      response.report (GraphImage.shown r.files) p.fileName fp := by
  simp only [judge, answer, h, hprompt, hstatus, Bool.false_eq_true, if_false, if_true]
  rfl

/-- **A judgement fails in one of these ways, and in no other.** -/
theorem judge_eq_error_iff {e : ModelError} :
    (m.judge say host p fp).1 = .error e ↔ Fails m say host p e := by
  constructor
  · intro hjudge
    cases hlaunch : host (m.launch p) with
    | error refusal =>
      rw [judge_of_refused hlaunch] at hjudge
      cases hjudge
      exact .refused hlaunch
    | ok r =>
      cases hlate : r.durationMs.all (m.timeoutMs ≤ ·) with
      | true =>
        rw [judge_of_late hlaunch hlate] at hjudge
        cases hjudge
        exact .late hlaunch (late_iff.1 hlate)
      | false =>
        obtain ⟨ms, hms, hprompt⟩ := prompt_iff.1 hlate
        cases hstatus : r.status.isSuccess with
        | false =>
          rw [judge_of_badStatus hlaunch hlate hstatus] at hjudge
          cases hjudge
          exact .badStatus hlaunch hms hprompt (mt isSuccess_iff.2 (Bool.eq_false_iff.1 hstatus))
        | true =>
          rw [judge_of_success hlaunch hlate hstatus] at hjudge
          cases hread : Response.read say (Utf8.lossy r.output) with
          | error e' =>
            rw [hread] at hjudge
            cases hjudge
            exact .badAnswer hlaunch hms hprompt (isSuccess_iff.1 hstatus) hread
          | ok response =>
            rw [hread] at hjudge
            cases hjudge
  · intro hfails
    cases hfails with
    | refused h => exact judge_of_refused h
    | late h hlate => exact judge_of_late h (late_iff.2 hlate)
    | badStatus h hms hprompt hstatus =>
      exact judge_of_badStatus h (prompt_iff.2 ⟨_, hms, hprompt⟩)
        (Bool.eq_false_iff.2 (mt isSuccess_iff.1 hstatus))
    | badAnswer h hms hprompt hstatus hread =>
      rw [judge_of_success h (prompt_iff.2 ⟨_, hms, hprompt⟩) (isSuccess_iff.2 hstatus), hread]
      rfl

/-- **A report is the response that the model printed, in time and with success.** -/
theorem judge_eq_ok_iff {report : Report} :
    (m.judge say host p fp).1 = .ok report ↔ ∃ r ms response, host (m.launch p) = .ok r ∧
      r.durationMs = some ms ∧ ms < m.timeoutMs ∧ r.status = .code 0 ∧
      Response.read say (Utf8.lossy r.output) = .ok response ∧
      response.report (GraphImage.shown r.files) p.fileName fp = report := by
  constructor
  · intro hjudge
    have hno (e : ModelError) : ¬ Fails m say host p e := fun h =>
      nomatch hjudge.symm.trans (judge_eq_error_iff.2 h)
    cases hlaunch : host (m.launch p) with
    | error refusal => exact absurd (.refused hlaunch) (hno _)
    | ok r =>
      cases hlate : r.durationMs.all (m.timeoutMs ≤ ·) with
      | true => exact absurd (.late hlaunch (late_iff.1 hlate)) (hno _)
      | false =>
        obtain ⟨ms, hms, hprompt⟩ := prompt_iff.1 hlate
        have hstatus : r.status = .code 0 := Decidable.byContradiction fun hstatus =>
          hno _ (.badStatus hlaunch hms hprompt hstatus)
        cases hread : Response.read say (Utf8.lossy r.output) with
        | error e => exact absurd (.badAnswer hlaunch hms hprompt hstatus hread) (hno _)
        | ok response =>
          rw [judge_of_success hlaunch hlate (isSuccess_iff.2 hstatus), hread] at hjudge
          cases hjudge
          exact ⟨r, ms, response, rfl, hms, hprompt, hstatus, hread, rfl⟩
  · rintro ⟨r, ms, response, hlaunch, hms, hprompt, hstatus, hread, rfl⟩
    rw [judge_of_success hlaunch (prompt_iff.2 ⟨ms, hms, hprompt⟩) (isSuccess_iff.2 hstatus), hread]
    rfl

end Outcomes

/-- **A model is unavailable exactly if its launch is refused.** -/
theorem judge_unavailable_iff {why : String} :
    (m.judge say (Host.processes files) p fp).1 = .error (.unavailable why) ↔
      ∃ e, Host.Refuses files (m.launch p) e ∧ why = m.program ++ ": " ++ e.message := by
  rw [judge_eq_error_iff]
  constructor
  · intro h
    cases h with
    | refused h => exact ⟨_, Host.processes_eq_error_iff.1 h, rfl⟩
    | badAnswer _ _ _ _ hread => rcases read_eq_error hread with ⟨_, h⟩ | ⟨_, h⟩ <;> cases h
  · rintro ⟨e, he, rfl⟩
    exact .refused (Host.processes_eq_error_iff.2 he)

/-- A model whose program is not installed is unavailable, for every file. -/
theorem judge_notInstalled (h : Shell.isInstalled (bytes m.program) = false) :
    ∃ why, (m.judge say (Host.processes files) p fp).1 = .error (.unavailable why) := by
  obtain ⟨e, he⟩ : ∃ e, Host.Refuses files (m.launch p) e := Host.exists_refuses h
  exact ⟨_, judge_unavailable_iff.2 ⟨e, he, rfl⟩⟩

/-- A status that is told is one of failure, and a byte. -/
theorem judge_exitStatus {code : Int}
    (h : (m.judge say (Host.processes files) p fp).1 = .error (.exitStatus (some code))) :
    0 < code ∧ code < 256 := by
  have hfails := judge_eq_error_iff.1 h
  generalize he : ModelError.exitStatus (some code) = e at hfails
  cases hfails with
  | refused | late => cases he
  | badAnswer _ _ _ _ hread => rcases read_eq_error hread with ⟨_, rfl⟩ | ⟨_, rfl⟩ <;> cases he
  | @badStatus r _ hlaunch _ _ hstatus =>
    rw [ModelError.exitStatus.injEq, eq_comm, Option.map_eq_some_iff] at he
    obtain ⟨n, hn, rfl⟩ := he
    have hzero : n ≠ 0 := by
      rintro rfl
      cases hr : r.status with
      | code k => rw [hr] at hn hstatus; cases hn; exact hstatus rfl
      | signal k => rw [hr] at hn; cases hn
    have hbyte := Host.code_lt hlaunch hn
    rw [Int.ofNat_eq_natCast]
    omega

end ChildModel

end DownloadTriage
