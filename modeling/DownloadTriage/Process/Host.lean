import DownloadTriage.Process.Command
import DownloadTriage.Process.Shell

/-!
# The processes of a host

What becomes of the programs that are launched on a host with some files: a shell, and the tools
beside it.
-/

namespace DownloadTriage.Host

/-- The number of the first process. -/
def firstProcess : Nat := 4242

/-- What became of the first process of a shell. Of its status a byte is left. -/
def result (s : Shell) (here : Place) : ProcessResult where
  output := (s.session.stream 1).text
  errors := (s.session.stream 2).text
  status := match s.session.signalOf? firstProcess with
    | some n => .signal n
    | none => .code (s.status % 256)
  durationMs := s.session.endMs
  files := { s.session.files with workingDir := here }

/-- A shell in a directory, about to start the first process in its own place. -/
def starting (files : FileTree) (dir : Place) : Shell :=
  { Shell.begin (Session.begin { files with workingDir := dir } (firstProcess + 1)) firstProcess [] with
    last := true }

/-- The program that a launch names, run in a directory. -/
def runIn (files : FileTree) (dir : Place) (l : Launch) : Except LaunchError ProcessResult :=
  let name := bytes l.program
  let shell := starting files dir
  match Shell.program? shell.session name with
  | .error none => .error .permissionDenied
  | .error (some e) => .error (.file e)
  | .ok _ =>
    .ok (result (Shell.start Shell.depth Shell.missing name l.arguments shell) files.workingDir)

/-- The processes of a host with these files. -/
def processes (files : FileTree) : Processes := fun l =>
  if l.hasNul then .error .nulByte
  else match l.directory with
    | none => runIn files files.workingDir l
    | some dir =>
      match files.look dir with
      | .ok (here, .directory) => runIn files here l
      | .ok _ => .error (.file .notDirectory)
      | .error e => .error (.file e)

end DownloadTriage.Host
