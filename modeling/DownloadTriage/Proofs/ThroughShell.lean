import DownloadTriage.Model.Child
import DownloadTriage.Process.Host

/-!
# A model behind a shell

A model may be started by a shell that hands its parameters on: `exec "$@"`. The shell reads this
script, makes words of its parameters, and takes the place of the program they name. None of this may
touch the parameters: a path with blanks, quotes or signs of patterns in it has to arrive as one
argument, and as the same one. Then the model behind the shell is the model, for every tool of the host
and every path.

* `fieldsOf_parameterMarks`, `paths_quoted`: quoted parameters are fields, each as it stands.
* `Alike.runTool`: a tool does the same for two shells that share what it gets to see.
* `newShell_handOn`: a shell with the script does what the tool does in its place.
* `Host.processes_handOn`, `ChildModel.judge_throughShell`: the two launches and the two judgements.
-/

namespace DownloadTriage

open Script

/-! ## Quoted text -/

namespace Pattern

/-- What is quoted stands for itself. -/
theorem ofMarked_quoted (bs : Bytes) : ofMarked (bs.map (·, true)) = bs.map .literal := by
  have hsteps (n : Nat) (h : bs.length ≤ n) : steps n (bs.map (·, true)) = bs.map .literal := by
    induction bs generalizing n with
    | nil => cases n <;> rfl
    | cons b bs ih =>
      obtain ⟨n, rfl⟩ : ∃ m, n = m + 1 := ⟨n - 1, by simp at h; omega⟩
      simp only [List.map_cons, steps, if_true]
      rw [ih n (by simpa using h)]
  exact hsteps _ (by simp)

theorem isActive_literal (bs : Bytes) : isActive (bs.map .literal) = false := by simp [isActive]

end Pattern

namespace Shell

/-- The bytes of a field, all of them quoted. -/
def quoted (bs : Bytes) : List (UInt8 × Bool) := bs.map (·, true)

/-- A quoted field is no pattern: it stands for itself, whatever files there are. -/
theorem paths_quoted (s : Shell) (bs : Bytes) : paths s (quoted bs) = [bs] := by
  have hplain : (quoted bs).map (·.1) = bs := by simp [quoted, Function.comp_def]
  have hinactive : Pattern.isActive (Pattern.ofMarked (quoted bs)) = false := by
    rw [quoted, Pattern.ofMarked_quoted, Pattern.isActive_literal]
  simp only [paths, hplain, hinactive, Bool.not_false, or_true, if_true]

variable (separators : Bytes) (closed : List (List (UInt8 × Bool)))

/-- Bytes that do not separate fields stay in the open one. -/
theorem foldl_marks (q : Bool) (c : List (UInt8 × Bool)) (bs : Bytes) :
    (marks q false bs).foldl (Fields.take separators) ⟨closed, some c, false⟩ =
      ⟨closed, some (c ++ bs.map (·, q)), false⟩ := by
  induction bs generalizing c with
  | nil => simp [marks]
  | cons b bs ih =>
    have hstep : Fields.take separators ⟨closed, some c, false⟩ (.byte b q false) =
        ⟨closed, some (c ++ [(b, q)]), false⟩ := by
      simp [Fields.take]
    rw [marks, List.map_cons, List.foldl_cons, hstep, ← marks, ih, List.append_assoc]
    rfl

theorem fieldsOf_marks (q : Bool) {bs : Bytes} (h : bs ≠ []) :
    fieldsOf separators (marks q false bs) = [bs.map (·, q)] := by
  obtain ⟨b, bs, rfl⟩ := List.exists_cons_of_ne_nil h
  have hfirst : Fields.take separators ⟨[], none, false⟩ (.byte b q false) =
      ⟨[], some [(b, q)], false⟩ := by
    simp [Fields.take]
  rw [fieldsOf, marks, List.map_cons, List.foldl_cons, hfirst, ← marks, foldl_marks]
  rfl

/-- The marks of a quoted parameter are one field, also if it is empty. -/
theorem foldl_parameter (p : Bytes) :
    ([Mark.present] ++ marks true false p).foldl (Fields.take separators) ⟨closed, none, false⟩ =
      ⟨closed, some (quoted p), false⟩ :=
  foldl_marks separators closed true [] p

/-- **All parameters, quoted, are the fields**: none is split, joined or lost. -/
theorem fieldsOf_parameterMarks (ps : List Bytes) :
    fieldsOf separators (parameterMarks true ps) = ps.map quoted := by
  have hall (closed : List (List (UInt8 × Bool))) :
      (Fields.close ((parameterMarks true ps).foldl (Fields.take separators) ⟨closed, none, false⟩)
        false).closed = closed ++ ps.map quoted := by
    induction ps generalizing closed with
    | nil => simp [parameterMarks, Fields.close]
    | cons p ps ih =>
      have hp := foldl_parameter separators closed p
      cases ps with
      | nil =>
        show (Fields.close (List.foldl _ _ ([Mark.present] ++ marks true false p)) false).closed = _
        rw [hp]
        rfl
      | cons q ps =>
        show (Fields.close (List.foldl _ _ ([Mark.present] ++ marks true false p ++
          Mark.apart :: parameterMarks true (q :: ps))) false).closed = _
        -- the mark between two parameters closes the field of the first
        have hclosed : Fields.take separators ⟨closed, some (quoted p), false⟩ .apart =
            ⟨closed ++ [quoted p], none, false⟩ := rfl
        rw [List.foldl_append, hp, List.foldl_cons, hclosed, ih, List.append_assoc]
        rfl
  exact hall []

/-! ## What a tool gets to see -/

/-- The descriptor of an outlet. -/
def descriptorOf : Outlet → Nat
  | .output => 1
  | .errors => 2

theorem writePieces_nil (s : Shell) : writePieces [] s = s := rfl

theorem writePieces_cons (p : Outlet × Bytes) (ps : List (Outlet × Bytes)) (s : Shell) :
    writePieces (p :: ps) s = writePieces ps (s.writeTo (descriptorOf p.1) p.2) := by
  obtain ⟨outlet, bs⟩ := p
  cases outlet <;> rfl

/-- Two shells share what a tool gets to see of them. -/
structure Alike (s u : Shell) : Prop where
  session : s.session = u.session
  descriptors : s.descriptors = u.descriptors
  environment : s.environment = u.environment

namespace Alike

variable {s u : Shell}

theorem withSession (h : Alike s u) (session : Session) :
    Alike { s with session } { u with session } :=
  ⟨rfl, h.descriptors, h.environment⟩

theorem writeTo (h : Alike s u) (descriptor : Nat) (bs : Bytes) :
    u.writeTo descriptor bs = { u with session := (s.writeTo descriptor bs).session } ∧
      s.writeTo descriptor bs = { s with session := (s.writeTo descriptor bs).session } := by
  have hstream : u.streamOf? descriptor = s.streamOf? descriptor := by
    rw [streamOf?, streamOf?, h.descriptors]
  unfold Shell.writeTo
  rw [hstream, ← h.session]
  split
  · exact ⟨by rw [h.session], rfl⟩
  · split
    · exact ⟨rfl, rfl⟩
    · exact ⟨by rw [h.session], rfl⟩

theorem writePieces (h : Alike s u) (pieces : List (Outlet × Bytes)) :
    Shell.writePieces pieces u = { u with session := (Shell.writePieces pieces s).session } ∧
      Shell.writePieces pieces s = { s with session := (Shell.writePieces pieces s).session } := by
  induction pieces generalizing s u with
  | nil => exact ⟨by rw [writePieces_nil, writePieces_nil, h.session], rfl⟩
  | cons p ps ih =>
    obtain ⟨hu, hs⟩ := h.writeTo (descriptorOf p.1) p.2
    rw [writePieces_cons, writePieces_cons, hu, hs]
    exact ih (h.withSession _)

/-- **A tool does the same for both**: it changes the session and the status, and nothing else. -/
theorem runTool (h : Alike s u) (t : Tool) (name : Bytes) (args : List Bytes) :
    Shell.runTool t name args u = { u with
      session := (Shell.runTool t name args s).session
      status := (Shell.runTool t name args s).status } := by
  have hstream : u.streamOf? 0 = s.streamOf? 0 := by rw [streamOf?, streamOf?, h.descriptors]
  have hinput : u.input = s.input := by rw [input, input, hstream, h.session]
  have hwork : workOf t name args u = workOf t name args s := by
    simp only [workOf, files, hstream, hinput, h.session, h.environment]
  have hpieces := ((h.withSession (settle (s.streamOf? 0) s.input (workOf t name args s)
    s.session)).writePieces (workOf t name args s).pieces.reverse).1
  rw [Shell.runTool, Shell.runTool, hstream, hinput, hwork, ← h.session]
  simp only [hpieces]
  rfl

end Alike

/-! ## Handing on -/

variable {t : Tool} {name : Bytes} {args : List Bytes} {s v : Shell}

/-- The script that hands the parameters of a shell on. -/
def handOnScript : Bytes := bytes "exec \"$@\""

/-- The words of its command. -/
def handOnWords : List Word :=
  [[.text (bytes "exec") false], [.parameter (bytes "@") .value false [] true]]

/-- A shell that has ended in the place of another. -/
def became (v r : Shell) : Shell :=
  { v with session := r.session, status := r.status, last := true, traps := [], flow := .exit }

/-- A shell that is about to hand its parameters on to a tool. -/
structure HandsOn (t : Tool) (name : Bytes) (args : List Bytes) (v : Shell) : Prop where
  tool : program? v.session name = .ok (.tool t)
  parameters : v.parameters = name :: args
  goesOn : v.goesOn = true
  flags : v.flags = []
  pending : v.pending = []

theorem flow_of_goesOn (h : v.goesOn = true) : v.flow = .on := by
  simp only [Shell.goesOn, Bool.and_eq_true, decide_eq_true_eq] at h
  exact h.1.1

theorem start_tool (fuel : Nat) (complaint : Bytes → Option FileError → Shell → Shell)
    (h : program? v.session name = .ok (.tool t)) (args : List Bytes) :
    start (fuel + 1) complaint name args v = runTool t name args v := by
  rw [start]
  simp only [h]

theorem expandWords_handOn (fuel : Nat) (hflow : v.flow = .on) (hps : v.parameters ≠ []) :
    expandWords (fuel + 5) handOnWords v = (bytes "exec" :: v.parameters, v) := by
  have hexec (fuel : Nat) : expand (fuel + 2) [.text (bytes "exec") false] v =
      (marks false false (bytes "exec"), v) := by
    simp [expand, expandPart, hflow]
  have hall (fuel : Nat) : expand (fuel + 2) [.parameter (bytes "@") .value false [] true] v =
      (parameterMarks true v.parameters, v) := by
    have hvalue : parameterValue v (bytes "@") = some ([0x20].intercalate v.parameters) := by
      simp [parameterValue, hps]
    simp [expand, expandPart, hflow, hvalue, valueMarks]
  have hname : (fieldsOf v.separators (marks false false (bytes "exec"))).flatMap (paths v) =
      [bytes "exec"] := by
    have hinactive : Pattern.isActive (Pattern.ofMarked ((bytes "exec").map (·, false))) = false := by
      decide
    have hplain : ((bytes "exec").map (·, false)).map (·.1) = bytes "exec" := by decide
    rw [fieldsOf_marks _ _ (by decide), List.flatMap_singleton]
    simp only [paths, hinactive, hplain, Bool.not_false, or_true, if_true]
  have hfields : (fieldsOf v.separators (parameterMarks true v.parameters)).flatMap (paths v) =
      v.parameters := by
    rw [fieldsOf_parameterMarks, List.flatMap_map]
    simp only [paths_quoted]
    exact List.flatMap_singleton' _
  simp only [expandWords, handOnWords, hexec, hall, hname, hfields]
  simp [hflow]

theorem perform_exec (fuel : Nat) (h : program? v.session name = .ok (.tool t)) :
    perform (fuel + 3) (bytes "exec") (name :: args) v = became v (runTool t name args v) := by
  have halike : Alike v { v with last := true, traps := [] } := ⟨rfl, rfl, rfl⟩
  have hstart := (start_tool (v := { v with last := true, traps := [] }) fuel missing h args).trans
    (halike.runTool t name args)
  have hspecial : special.contains (bytes "exec") = true := by decide
  have hevaluating : evaluating.contains (bytes "exec") = true := by decide
  have heval : ¬ bytes "exec" = bytes "eval" := by decide
  have hdot : ¬ bytes "exec" = bytes "." := by decide
  rw [perform]
  simp only [hspecial, hevaluating, if_true]
  rw [evaluate]
  simp only [heval, hdot, if_false, if_true, hstart]
  rfl

theorem simple_handOn (fuel : Nat) (h : HandsOn t name args v) :
    simple (fuel + 8) [] handOnWords [] v =
      became { v with printed := none } (runTool t name args v) := by
  obtain ⟨u, hu⟩ : ∃ u, u = { v with printed := none } := ⟨_, rfl⟩
  have hflow : u.flow = .on := by rw [hu, ← flow_of_goesOn h.goesOn]
  have hps : u.parameters = name :: args := by rw [hu, ← h.parameters]
  have hflags : u.flags = [] := by rw [hu, ← h.flags]
  have halike : Alike v u := by rw [hu]; exact ⟨rfl, rfl, rfl⟩
  have hwords := expandWords_handOn (fuel + 2) hflow (by rw [hps]; exact List.cons_ne_nil _ _)
  have hredirect : redirect (fuel + 7) [] u = (none, u) := rfl
  have hassign : assignAll (fuel + 7) [] u = u := rfl
  have htrace (ws : List Bytes) : trace ws u = u := by simp [trace, hflags]
  have hperform : perform (fuel + 7) (bytes "exec") (name :: args) u =
      became u (runTool t name args v) := by
    rw [perform_exec (fuel + 4) (by rw [hu]; exact h.tool), halike.runTool]
    rfl
  have hspecial : special.contains (bytes "exec") = true := by decide
  have hdescriptors (r : Shell) :
      { became u r with descriptors := u.descriptors } = became u r := rfl
  rw [simple, ← hu]
  simp only [hwords, hredirect, hassign, hflow, hps, ne_eq, not_true_eq_false, if_false,
    List.map_nil, List.foldl_nil, hspecial, if_true, shownAssignments, List.nil_append, htrace,
    hperform, List.isEmpty_cons, Bool.false_eq_true, and_false, hdescriptors]

theorem run_handOn (fuel : Nat) (h : HandsOn t name args v) :
    run (fuel + 10) (.simple [] handOnWords [] 1) v =
      became { v with line := 1, printed := none } (runTool t name args v) := by
  obtain ⟨u, hu⟩ : ∃ u, u = became { v with line := 1, printed := none } (runTool t name args v) :=
    ⟨_, rfl⟩
  have halike : Alike v { v with line := 1 } := ⟨rfl, rfl, rfl⟩
  have hline : HandsOn t name args { v with line := 1 } :=
    ⟨h.tool, h.parameters, h.goesOn, h.flags, h.pending⟩
  have hsimple : simple (fuel + 9) [] handOnWords [] { v with line := 1 } = u := by
    rw [simple_handOn (fuel + 1) hline, halike.runTool, hu]
    rfl
  -- nothing came meanwhile, and no failure is minded
  have hattend : attend (fuel + 9) u = u := by
    have hpending : u.pending = [] := by rw [hu]; exact h.pending
    rw [attend.eq_def]
    simp only [hpending]
  have hminding : minding u = u := by
    have hflags : u.flags = [] := by rw [hu]; exact h.flags
    simp [minding, hflags]
  rw [run.eq_def]
  simp only [h.goesOn, Bool.not_true, Bool.false_eq_true, if_false]
  rw [hsimple, hattend, hminding, hu]

theorem next_handOn (docs : List HereDoc) (made : Nat) :
    ({ Cursor.ofScript handOnScript with docs, made }).next =
      (.ok (some (.simple [] handOnWords [] 1)), { Cursor.ofScript [] with docs, made }) := by
  with_unfolding_all rfl

/-- The script ends the shell with its one command. -/
theorem script_handOn (fuel : Nat) (h : HandsOn t name args v) :
    script (fuel + 12) true (scriptOf v handOnScript) v =
      became { v with line := 1, printed := none } (runTool t name args v) := by
  obtain ⟨u, hu⟩ : ∃ u, u = { v with docs := v.docs, last := true } := ⟨_, rfl⟩
  have halike : Alike v u := by rw [hu]; exact ⟨rfl, rfl, rfl⟩
  have hhands : HandsOn t name args u := by
    rw [hu]
    exact ⟨h.tool, h.parameters, h.goesOn, h.flags, h.pending⟩
  have hrun : run (fuel + 11) (.simple [] handOnWords [] 1) u =
      became { v with line := 1, printed := none } (runTool t name args v) := by
    rw [run_handOn (fuel + 1) hhands, halike.runTool, hu]
    rfl
  have hcursor : scriptOf v handOnScript =
      { Cursor.ofScript handOnScript with docs := v.docs, made := v.docs.length } := rfl
  have hend : { Cursor.ofScript [] with docs := v.docs, made := v.docs.length }.rest.isEmpty = true :=
    rfl
  have hflag : ¬ v.flags.contains 'n' = true := by simp [h.flags]
  rw [hcursor, script.eq_def]
  simp only [h.goesOn, Bool.not_true, Bool.false_eq_true, if_false, next_handOn, hend, Bool.and_self,
    ← hu]
  rw [if_neg hflag, hrun, script.eq_def]
  rfl

/-! ## A shell with the script -/

/-- The errand of a shell that is given a text, a name and parameters. -/
theorem errand_text {fresh : Shell} {script called : Bytes} {ps : List Bytes}
    (h : script.head? ≠ some (byte '-') ∧ script.head? ≠ some (byte '+')) :
    errand fresh (bytes "-c" :: script :: called :: ps) =
      (.text script, { fresh with name := called, parameters := ps }) := by
  have hdash : script ≠ bytes "-" ∧ script ≠ bytes "--" :=
    ⟨by rintro rfl; exact h.1 rfl, by rintro rfl; exact h.1 rfl⟩
  have hcommands : (bytes "-c" :: script :: called :: ps).takeWhile (fun a =>
      (a.head? = some (byte '-') || a.head? = some (byte '+')) && a ≠ bytes "--" && a ≠ bytes "-") =
      [bytes "-c"] := by
    rw [List.takeWhile_cons_of_pos (by decide), List.takeWhile_cons_of_neg (by simp [h])]
  have hflags : ((([bytes "-c"].map fun a =>
      a.filter fun b => b ≠ byte 'c' && b ≠ byte 's' && b ≠ byte 'l')).filter fun a =>
      a ≠ bytes "-" && a ≠ bytes "+") = [] := by
    decide
  have htake (as : List Bytes) : takeFlags fresh (bytes "--" :: as) = (fresh, .ok (some as)) := rfl
  unfold errand
  simp only [hcommands, hflags, htake, List.nil_append, List.length_singleton, List.drop_succ_cons,
    List.drop_zero, Option.getD_some, List.head?_cons, Option.some.injEq, hdash, or_self, if_false]
  rfl

theorem environment_begin (session : Session) (self : Nat) (vs : List (Bytes × Bytes)) :
    (begin session self vs).environment = vs := by
  rw [environment, begin, List.filterMap_map]
  exact List.filterMap_some

/-- **A shell that is nothing but the last thing to do, with the script, does what the tool does in its
place.** -/
theorem newShell_handOn (fuel : Nat) (ht : program? s.session name = .ok (.tool t))
    (hlast : s.last = true) (htraps : s.traps = []) (hendless : s.session.endless = false)
    (hkilled : s.isKilled = false) (shell called : Bytes) :
    newShell (fuel + 14) shell (bytes "-c" :: handOnScript :: called :: name :: args) s =
      after s s.self (runTool t name args s) := by
  obtain ⟨fresh, hfresh⟩ : ∃ fresh, fresh = { begin s.session s.self s.environment with
      name := called, descriptors := s.descriptors, parameters := name :: args } := ⟨_, rfl⟩
  have halike : Alike s fresh := by
    rw [hfresh]
    exact ⟨rfl, rfl, (environment_begin s.session s.self s.environment).symm⟩
  have hon : fresh.goesOn = true := by
    have hfree : fresh.isKilled = false := by rw [hfresh]; exact hkilled
    rw [Shell.goesOn, hfree, hfresh]
    simp [begin, hendless]
  have hhands : HandsOn t name args fresh :=
    ⟨by rw [hfresh]; exact ht, by rw [hfresh], hon, by rw [hfresh]; rfl, by rw [hfresh]; rfl⟩
  have herrand : errand { begin s.session s.self s.environment with
      name := shell, descriptors := s.descriptors }
      (bytes "-c" :: handOnScript :: called :: name :: args) = (.text handOnScript, fresh) := by
    rw [errand_text (by decide), hfresh]
  have hfinish (u r : Shell) : finish (fuel + 13) (became u r) = became u r := rfl
  rw [newShell.eq_def]
  simp only [hlast, htraps, List.isEmpty_nil, Bool.and_self, if_true, herrand]
  rw [script_handOn (fuel + 1) hhands, hfinish, halike.runTool]
  rfl

/-- No tool is a shell or runs other programs. -/
theorem program?_tool (session : Session) (h : Tool.ofName? (installedName name) = some t) :
    program? session name = .ok (.tool t) := by
  have hapart : ∀ u ∈ Tool.all,
      shells.contains (bytes u.1) = false ∧ runners.contains (bytes u.1) = false := by
    decide +kernel
  obtain ⟨u, hu, -⟩ := Option.map_eq_some_iff.1 h
  have hname : bytes u.1 = installedName name := by simpa using List.find?_some hu
  obtain ⟨hshell, hrunner⟩ := hapart u (List.mem_of_find?_eq_some hu)
  rw [hname] at hshell hrunner
  simp only [program?, hshell, hrunner, h, Bool.false_eq_true, if_false]

end Shell

/-! ## The launch -/

namespace Host

variable {program : String} {t : Tool}

/-- A process that ended in the place of the first one is the first one. -/
theorem result_after (s c : Shell) (here : Place) (h : s.self = firstProcess) :
    result (s.after s.self c) here = result c here := by
  have hsignal (files : FileTree) : ({ c.session with files } : Session).signalOf? firstProcess =
      c.session.signalOf? firstProcess := rfl
  simp only [result, Shell.after, h, hsignal]
  cases c.session.signalOf? firstProcess with
  | none => simp only [Nat.mod_mod]; rfl
  | some n => rfl

theorem runIn_handOn (h : Tool.ofName? (Shell.installedName (bytes program)) = some t)
    (files : FileTree) (dir : Place) (called : Bytes) (args : List Bytes) (d d' : Option Path) :
    runIn files dir
        ⟨"sh", bytes "-c" :: Shell.handOnScript :: called :: bytes program :: args, d⟩ =
      runIn files dir ⟨program, args, d'⟩ := by
  have hdepth : Shell.depth = 19985 + 14 + 1 := rfl
  have ht : Shell.program? (starting files dir).session (bytes program) = .ok (.tool t) :=
    Shell.program?_tool _ h
  have hsh : Shell.program? (starting files dir).session (bytes "sh") = .ok .shell := rfl
  have hshell : Shell.start Shell.depth Shell.missing (bytes "sh")
      (bytes "-c" :: Shell.handOnScript :: called :: bytes program :: args) (starting files dir) =
      (starting files dir).after (starting files dir).self
        (Shell.runTool t (bytes program) args (starting files dir)) := by
    rw [hdepth, Shell.start]
    simp only [hsh]
    exact Shell.newShell_handOn 19985 ht rfl rfl rfl rfl (bytes "sh") called
  have htool : Shell.start Shell.depth Shell.missing (bytes program) args (starting files dir) =
      Shell.runTool t (bytes program) args (starting files dir) := by
    rw [hdepth, Shell.start_tool _ _ ht]
  simp only [runIn, hsh, ht, hshell, htool]
  rw [result_after _ _ _ rfl]

/-- **A launch through a shell is the launch**: it is refused for the same reason, or the outcome is the
same. -/
theorem processes_handOn (h : Tool.ofName? (Shell.installedName (bytes program)) = some t)
    (files : FileTree) {called : Bytes} (hcalled : called.contains 0 = false) (args : List Bytes)
    (d : Option Path) :
    processes files
        ⟨"sh", bytes "-c" :: Shell.handOnScript :: called :: bytes program :: args, d⟩ =
      processes files ⟨program, args, d⟩ := by
  have hnul : Launch.hasNul
      ⟨"sh", bytes "-c" :: Shell.handOnScript :: called :: bytes program :: args, d⟩ =
      Launch.hasNul ⟨program, args, d⟩ := by
    have hsh : (bytes "sh").contains 0 = false := by decide
    have hswitch : (bytes "-c").contains 0 = false := by decide
    have hscript : Shell.handOnScript.contains 0 = false := by decide
    simp only [Launch.hasNul, List.any_cons, hsh, hswitch, hscript, hcalled, Bool.false_or]
  unfold processes
  rw [hnul]
  split
  · rfl
  · cases d with
    | none => exact runIn_handOn h ..
    | some dir =>
      dsimp only
      split
      · exact runIn_handOn h ..
      · rfl
      · rfl

end Host

/-! ## The model -/

namespace ChildModel

/-- The same model behind a shell that hands its parameters on. -/
def throughShell (m : ChildModel) : ChildModel :=
  { m with
    program := "sh"
    arguments := bytes "-c" :: Shell.handOnScript :: bytes "sh" :: bytes m.program :: m.arguments }

/-- **A shell in front of a tool changes nothing**, whatever the arguments and the path are: the launch
has the same outcome, and unless it is refused the judgement is the same. -/
theorem judge_throughShell {m : ChildModel} {t : Tool}
    (h : Tool.ofName? (Shell.installedName (bytes m.program)) = some t) (files : FileTree)
    (say : Response.Objections) (p : Path) (fp : Option Fingerprint) :
    Host.processes files (m.throughShell.launch p) = Host.processes files (m.launch p) ∧
      ∀ r, Host.processes files (m.launch p) = .ok r →
        m.throughShell.judge say (Host.processes files) p fp =
          m.judge say (Host.processes files) p fp := by
  have hlaunch : Host.processes files (m.throughShell.launch p) =
      Host.processes files (m.launch p) :=
    Host.processes_handOn h files (by decide) (m.arguments ++ [p.bytes]) m.directory
  refine ⟨hlaunch, fun r hr => ?_⟩
  -- only a refusal tells which program was launched
  have hanswer : m.throughShell.answer (Host.processes files) p =
      m.answer (Host.processes files) p := by
    simp only [answer, hlaunch, hr]
    rfl
  rw [judge, judge, hanswer]

end ChildModel

end DownloadTriage
