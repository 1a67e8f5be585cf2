import DownloadTriage.Files.Path

/-!
# Changes in a directory

What the system reports of a directory, and which reports say that a file arrived.
-/

namespace DownloadTriage

/-- What was created. -/
inductive Created where
  | anything
  | file
  | folder
  | other
  deriving DecidableEq, Repr

/-- Which end of a renaming is reported. -/
inductive Renamed where
  | anything
  | target
  | source
  | both
  | other
  deriving DecidableEq, Repr

/-- The kind of a change. -/
inductive ChangeKind where
  | created (what : Created)
  | renamed (which : Renamed)
  /-- Content or attributes changed, or the file was read or removed. -/
  | other
  deriving DecidableEq, Repr

/-- A report of the system. -/
inductive Change where
  | change (kind : ChangeKind) (paths : List Path)
  | fault (reason : String)
  deriving DecidableEq, Repr

/-- The path that arrived with a change: the created file, or the target of a renaming, which is
the last of its paths. -/
def ChangeKind.arrival (kind : ChangeKind) (paths : List Path) : Option Path :=
  match kind with
  | .created .anything => paths.head?
  | .created .file => paths.head?
  | .renamed .anything => paths.getLast?
  | .renamed .target => paths.getLast?
  | .renamed .both => paths.getLast?
  | _ => none

/-- The kinds that can bring a file, by name. -/
def ChangeKind.names : List (String × ChangeKind) :=
  [("create_any", .created .anything), ("create_file", .created .file),
    ("create_folder", .created .folder), ("create_other", .created .other),
    ("rename_any", .renamed .anything), ("rename_to", .renamed .target),
    ("rename_from", .renamed .source), ("rename_both", .renamed .both),
    ("rename_other", .renamed .other)]

/-- The kind of a name; any other name says nothing of arrivals. -/
def ChangeKind.ofName (name : String) : ChangeKind := (names.lookup name).getD .other

end DownloadTriage
