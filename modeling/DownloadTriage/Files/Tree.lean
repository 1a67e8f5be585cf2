import DownloadTriage.Files.Path

/-!
# A tree of files

What the agent sees of the file system: directories, regular files and devices, by the names from
the root. A path is looked up name by name, so that a missing directory and a file in the place of
one are told apart.

* `node?_put_self`: what is put at a place stands there.
-/

namespace DownloadTriage

/-- The content of a regular file: its bytes, or a length full of holes. -/
inductive Content where
  | bytes (data : Array UInt8)
  | holes (size : Nat)
  deriving DecidableEq, Repr

namespace Content

/-- The length. -/
def size : Content → Nat
  | bytes d => d.size
  | holes n => n

/-- The bytes that a reader gets. -/
def data : Content → Array UInt8
  | bytes d => d
  | holes n => Array.replicate n 0

end Content

/-- What stands at a name. A device reads as empty and is no regular file. -/
inductive Node where
  | file (content : Content)
  | directory
  | device
  deriving DecidableEq, Repr

/-- Why the system refuses. -/
inductive FileError where
  | notFound
  | notDirectory
  | isDirectory
  | nameTooLong
  | nulInPath
  deriving DecidableEq, Repr

/-- The system's words for a refusal. -/
def FileError.message : FileError → String
  | notFound => "No such file or directory (os error 2)"
  | notDirectory => "Not a directory (os error 20)"
  | isDirectory => "Is a directory (os error 21)"
  | nameTooLong => "File name too long (os error 36)"
  | nulInPath => "file name contained an unexpected NUL byte"

/-- What is known of a file without reading it. -/
structure FileStat where
  isRegular : Bool
  size : Nat
  deriving DecidableEq, Repr

/-- The names from the root to a place. -/
abbrev Place := List (List UInt8)

/-- The files, and the directory that relative paths start from. The root is always there. -/
structure FileTree where
  nodes : List (Place × Node)
  workingDir : Place

namespace FileTree

/-- What stands at a place. -/
def node? (t : FileTree) (here : Place) : Option Node :=
  if here = [] then some .directory else t.nodes.lookup here

/-- The tree with `n` at a place. -/
def put (t : FileTree) (here : Place) (n : Node) : FileTree :=
  { t with nodes := (here, n) :: t.nodes.filter (·.1 ≠ here) }

/-- The tree with every directory along a place. -/
def putDirectories (t : FileTree) (here : Place) : FileTree :=
  (List.range here.length).foldl
    (fun t i =>
      let dir := here.take (i + 1)
      match t.node? dir with
      | some _ => t
      | none => t.put dir .directory) t

/-- The names longer than the system allows. -/
def isLong (n : List UInt8) : Bool := 255 < n.length

/-- Follow names from a place through directories to where the last name would stand. -/
def follow (t : FileTree) : Place → List (List UInt8) → Except FileError Place
  | here, [] => .ok here
  | here, n :: ns =>
    match t.node? here with
    | none => .error .notFound
    | some .directory =>
      if n = Path.parentName then follow t here.dropLast ns
      else if isLong n then .error .nameTooLong
      else follow t (here ++ [n]) ns
    | some _ => .error .notDirectory

/-- Whether the path says that it names a directory. -/
def namesDirectory (p : Path) : Bool :=
  match (Path.pieces p.bytes).getLast? with
  | some n => n = [] ∨ n = [0x2E]
  | none => false

/-- Where a path starts from, if the system takes it. -/
def start (t : FileTree) (p : Path) : Except FileError Place :=
  if p.bytes.contains 0 then .error .nulInPath
  else if p.bytes = [] then .error .notFound
  else if 4096 ≤ p.bytes.length then .error .nameTooLong
  else .ok (if p.isAbsolute then [] else t.workingDir)

/-- The place that a path leads to; nothing need stand there yet. -/
def place (t : FileTree) (p : Path) : Except FileError Place := do
  follow t (← t.start p) p.names

/-- What stands where a path leads. -/
def look (t : FileTree) (p : Path) : Except FileError (Place × Node) := do
  let here ← t.place p
  match t.node? here with
  | none => .error .notFound
  | some n =>
    if namesDirectory p ∧ n ≠ .directory then .error .notDirectory else .ok (here, n)

/-- The kind and length of what stands at a path. -/
def stat (t : FileTree) (p : Path) : Except FileError FileStat :=
  (t.look p).map fun (_, n) =>
    match n with
    | .file c => ⟨true, c.size⟩
    | .directory => ⟨false, 4096⟩
    | .device => ⟨false, 0⟩

/-- Whether something stands at a path. -/
def exists? (t : FileTree) (p : Path) : Bool := (t.look p).isOk

/-- Whether a directory stands at a path. -/
def isDirectory (t : FileTree) (p : Path) : Bool :=
  match t.look p with
  | .ok (_, .directory) => true
  | _ => false

/-- The content of the file at a path. -/
def content (t : FileTree) (p : Path) : Except FileError Content := do
  match (← t.look p).2 with
  | .file c => .ok c
  | .device => .ok (.bytes #[])
  | .directory => .error .isDirectory

/-- The bytes of the file at a path. -/
def read (t : FileTree) (p : Path) : Except FileError (Array UInt8) :=
  (t.content p).map Content.data

/-- Where the last name of a path stands or would stand, in a directory that is there. A slash after
the name is one too many. -/
def entry (t : FileTree) (p : Path) : Except FileError Place := do
  match p.lastStep? with
  | none => (t.look p).bind fun _ => .error .isDirectory
  | some name =>
    let dir ← follow t (← t.start p) p.names.dropLast
    match t.node? dir with
    | none => .error .notFound
    | some .directory =>
      if namesDirectory p then .error .isDirectory
      else if isLong name then .error .nameTooLong
      else .ok (dir ++ [name])
    | some _ => .error .notDirectory

/-- The tree after the bytes were written to a path, over what the file held before. -/
def write (t : FileTree) (p : Path) (data : Array UInt8) : Except FileError FileTree := do
  let here ← t.entry p
  match t.node? here with
  | some .directory => .error .isDirectory
  | some .device => .ok t
  | _ => .ok (t.put here (.file (.bytes data)))

/-- The path from the root of what stands at a path. -/
def canonicalPath (t : FileTree) (p : Path) : Except FileError Path :=
  (t.look p).map fun (here, _) => Path.ofNames here

/-- The tree without what stands at a path and below it; nothing there is no error. -/
def remove (t : FileTree) (p : Path) : FileTree :=
  match t.look p with
  | .ok (here, _) => { t with nodes := t.nodes.filter fun m => !here.isPrefixOf m.1 }
  | .error _ => t

/-- The tree without the file at a path. Directories stay. -/
def unlink (t : FileTree) (p : Path) : FileTree := if t.isDirectory p then t else t.remove p

/-- Whether nothing stands below a place. -/
def isBare (t : FileTree) (here : Place) : Bool :=
  !t.nodes.any fun m => here.isPrefixOf m.1 && here.length < m.1.length

/-- Whether what stands at one place may take another place: a file that of a file, a directory that
of a bare directory outside of it. -/
def mayReplace (t : FileTree) (here there : Place) : Bool :=
  match t.node? here, t.node? there with
  | some .directory, none => !here.isPrefixOf there
  | some .directory, some .directory => t.isBare there && !here.isPrefixOf there
  | some .directory, _ => false
  | some _, some .directory => false
  | _, _ => here ≠ there

/-- The tree with what stands at one path, and below it, moved to another. -/
def rename (t : FileTree) (source target : Path) : FileTree :=
  match t.look source, t.place target with
  | .ok (here, _), .ok there =>
    if t.node? there.dropLast = some .directory ∧ t.mayReplace here there then
      let moved := (t.nodes.filter fun m => here.isPrefixOf m.1).map fun m =>
        (there ++ m.1.drop here.length, m.2)
      let kept := t.nodes.filter fun m => !here.isPrefixOf m.1 && !there.isPrefixOf m.1
      { t with nodes := moved ++ kept }
    else t
  | _, _ => t

/-- The tree with a node at a path and directories along it. What is no directory takes the place
of no directory. -/
def create (t : FileTree) (p : Path) (n : Node) : FileTree :=
  let here := match t.place p with
    | .ok here => here
    | .error _ => t.workingDir ++ p.names
  let t := t.putDirectories here.dropLast
  match n with
  | .directory => t.putDirectories here
  | n =>
    if t.node? here = some .directory ∨ t.node? here.dropLast ≠ some .directory then t
    else t.put here n

theorem node?_put_self (t : FileTree) {here : Place} (n : Node) (h : here ≠ []) :
    (t.put here n).node? here = some n := by
  simp [node?, put, h]

end FileTree

end DownloadTriage
