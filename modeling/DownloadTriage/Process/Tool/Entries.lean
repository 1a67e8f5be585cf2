import DownloadTriage.Process.Tool.Fields

/-!
# Tools that change directories

Tools that list, make, move and remove files and directories.
-/

namespace DownloadTriage.Tool

open Script

/-- The last name of a path. -/
def lastName (p : Bytes) : Bytes :=
  ((unslashed p).reverse.takeWhile (· ≠ Path.separator)).reverse

/-- A path in a directory. -/
def inDirectory (dir name : Bytes) : Bytes := (Path.join ⟨dir⟩ ⟨name⟩).bytes

/-- What stands at a path. -/
def nodeAt (t : FileTree) (p : Bytes) : Except FileError Node := (t.look ⟨p⟩).map (·.2)

/-- Removes files, and directories if asked for. -/
def rm : Tool :=
  let known := [flag 'f' "force", flag 'r' "recursive", flag 'R' "", flag 'd' "dir",
    flag 'v' "verbose", flag 'i' "", flag 'I' ""]
  withUsage 1 known fun u c => do
    let force := u.has 'f'
    let deep := u.has 'r' || u.has 'R'
    if u.operands.isEmpty ∧ !force then misused 1 c (bytes "missing operand")
    else u.operands.forM fun p => do
      let t ← files
      let cannot (why : Bytes) : StateM Work Unit :=
        complain c (bytes "cannot remove " ++ Quoted.always p ++ bytes ": " ++ why)
      let name := lastName p
      if deep ∧ (name = bytes "." ∨ name = bytes "..") then
        complain c (bytes "refusing to remove '.' or '..' directory: skipping " ++ Quoted.always p)
      else
        match nodeAt t p with
        | .error .notFound => if !force then cannot (refusal .notFound)
        | .error .notDirectory => if !force then cannot (refusal .notDirectory)
        | .error e => cannot (refusal e)
        | .ok .directory =>
          let bare : Bool := match t.look ⟨p⟩ with
            | .ok (here, _) => t.isBare here
            | .error _ => false
          if deep ∨ (u.has 'd' ∧ bare) then setFiles (t.remove ⟨p⟩)
          else if u.has 'd' then cannot (bytes "Directory not empty")
          else cannot (refusal .isDirectory)
        | .ok _ => setFiles (t.remove ⟨p⟩)

/-- Removes directories with nothing in them. -/
def rmdir : Tool :=
  let known := [flag 'p' "parents", flag 'v' "verbose", flag 'i' "ignore-fail-on-non-empty"]
  withUsage 1 known fun u c => do
    if u.operands.isEmpty then misused 1 c (bytes "missing operand")
    else u.operands.forM fun p => do
      let t ← files
      let cannot (why : Bytes) : StateM Work Unit :=
        complain c (bytes "failed to remove " ++ Quoted.always p ++ bytes ": " ++ why)
      match t.look ⟨p⟩ with
      | .error e => cannot (refusal e)
      | .ok (here, .directory) =>
        if t.isBare here then setFiles (t.remove ⟨p⟩)
        else if !u.has 'i' then cannot (bytes "Directory not empty")
      | .ok _ => cannot (refusal .notDirectory)

/-- The paths on the way to a path, which is the last of them. -/
def ancestors (p : Bytes) : List Bytes :=
  let ends := (List.range ((unslashed p).length + 1)).filter fun n =>
    0 < n && (unslashed p)[n]?.all (· = Path.separator)
  ends.map (unslashed p).take

/-- Makes directories, with those above them if asked for. -/
def mkdir : Tool :=
  let known := [flag 'p' "parents", flag 'v' "verbose", setting 'm' "mode"]
  withUsage 1 known fun u c => do
    if u.operands.isEmpty then misused 1 c (bytes "missing operand")
    else u.operands.forM fun p => do
      let t ← files
      let cannot (why : Bytes) : StateM Work Unit :=
        complain c (bytes "cannot create directory " ++ Quoted.always p ++ bytes ": " ++ why)
      match t.look ⟨p⟩, t.place ⟨unslashed p⟩ with
      | .ok (_, n), _ =>
        if !(u.has 'p' ∧ n = .directory) then cannot (bytes "File exists")
      | .error .notFound, .ok here =>
        if t.node? here.dropLast = some .directory then setFiles (t.put here .directory)
        else if u.has 'p' then setFiles (t.putDirectories here)
        else cannot (refusal .notFound)
      | .error .notFound, .error _ =>
        if u.has 'p' then
          setFiles (t.putDirectories ((if (Path.mk p).isAbsolute then [] else t.workingDir) ++
            (Path.mk p).names))
        else cannot (refusal .notFound)
      | .error e, _ =>
        match u.has 'p', (ancestors p).find? fun a => (nodeAt t a).isOk && !t.isDirectory ⟨a⟩ with
        | true, some above =>
          if above = unslashed p then cannot (bytes "File exists")
          else complain c (bytes "cannot create directory " ++ Quoted.always above ++ bytes ": " ++
            refusal e)
        | _, _ => cannot (if e = .notDirectory ∧ (nodeAt t (unslashed p)).isOk
            then bytes "File exists" else refusal e)

/-- Makes files that are not there. -/
def touch : Tool :=
  let known := [flag 'c' "no-create", flag 'a' "", flag 'm' "", flag 'h' "no-dereference",
    setting 'd' "date", setting 't' "", setting 'r' "reference"]
  withUsage 1 known fun u c => do
    if u.operands.isEmpty then misused 1 c (bytes "missing file operand")
    else u.operands.forM fun p => do
      let t ← files
      let cannot (why : Bytes) : StateM Work Unit :=
        complain c (bytes "cannot touch " ++ Quoted.always p ++ bytes ": " ++ why)
      match nodeAt t p with
      | .ok _ => return ()
      | .error .notFound =>
        if !u.has 'c' then
          match t.write ⟨p⟩ #[] with
          | .ok t => setFiles t
          | .error .isDirectory => cannot (refusal .notFound)
          | .error e => cannot (refusal e)
      | .error e => cannot (refusal e)

/-- The files with a copy of what stands at a place at another. What stands at the other already is
not copied with it. -/
def copied (t : FileTree) (here there : Place) : FileTree :=
  let copies := (t.nodes.filter fun m => here.isPrefixOf m.1 && !there.isPrefixOf m.1).map fun m =>
    (there ++ m.1.drop here.length, m.2)
  copies.foldl (fun t m => t.put m.1 m.2) t

/-- The sources of a call that moves or copies, each with where it goes. -/
def destinations (u : Usage) (c : Call) : StateM Work (List (Bytes × Bytes)) := do
  let t ← files
  match u.last? 't', u.operands with
  | some dir, ps => return ps.map fun p => (p, inDirectory dir (lastName p))
  | none, [] =>
    misused 1 c (bytes "missing file operand")
    return []
  | none, [p] =>
    misused 1 c (bytes "missing destination file operand after " ++ Quoted.always p)
    return []
  | none, ps =>
    let target := ps.getLastD []
    let ps := ps.dropLast
    if !u.has 'T' ∧ t.isDirectory ⟨target⟩ then
      return ps.map fun p => (p, inDirectory target (lastName p))
    else match ps with
      | [p] => return [(p, target)]
      | _ =>
        complain c (bytes "target " ++ Quoted.always target ++ bytes ": " ++
          (match nodeAt t target with
            | .error e => refusal e
            | .ok _ => refusal .notDirectory))
        return []

/-- Switches of tools that move or copy. -/
def transferSwitches : List Switch :=
  [flag 'f' "force", flag 'i' "interactive", flag 'n' "no-clobber", flag 'v' "verbose",
    flag 'T' "no-target-directory", setting 't' "target-directory", flag 'u' "update"]

/-- Moves files and directories. -/
def mv : Tool :=
  withUsage 1 transferSwitches fun u c => do
    (← destinations u c).forM fun (p, target) => do
      let t ← files
      match t.look ⟨p⟩, t.place ⟨target⟩ with
      | .error e, _ =>
        complain c (bytes "cannot stat " ++ Quoted.always p ++ bytes ": " ++ refusal e)
      | .ok (here, n), .ok there =>
        let both := Quoted.always p ++ bytes " to " ++ Quoted.always target
        if here = there then
          complain c (Quoted.always p ++ bytes " and " ++ Quoted.always target ++
            bytes " are the same file")
        else if u.has 'n' ∧ (t.node? there).isSome then return ()
        else if t.node? there.dropLast ≠ some .directory then
          complain c (bytes "cannot move " ++ both ++ bytes ": " ++
            refusal (if (t.node? there.dropLast).isSome then .notDirectory else .notFound))
        else if t.mayReplace here there then
          if FileTree.namesDirectory ⟨target⟩ ∧ n ≠ .directory then
            complain c (bytes "cannot move " ++ both ++ bytes ": " ++ refusal .notDirectory)
          else setFiles (t.rename ⟨p⟩ ⟨target⟩)
        else if n = .directory ∧ (t.node? there).isSome ∧ t.node? there ≠ some .directory then
          complain c (bytes "cannot overwrite non-directory " ++ Quoted.always target ++
            bytes " with directory " ++ Quoted.always p)
        else if n ≠ .directory then
          complain c (bytes "cannot overwrite directory " ++ Quoted.always target ++
            bytes " with non-directory")
        else if (t.node? there).isSome then
          complain c (bytes "cannot overwrite " ++ Quoted.always target ++
            bytes ": Directory not empty")
        else
          complain c (bytes "cannot move " ++ Quoted.always p ++
            bytes " to a subdirectory of itself, " ++ Quoted.always target)
      | .ok _, .error e =>
        complain c (bytes "cannot move " ++ Quoted.always p ++ bytes " to " ++
          Quoted.always target ++ bytes ": " ++ refusal e)

/-- Copies files, and directories if asked for. -/
def cp : Tool :=
  let known := transferSwitches ++ [flag 'r' "recursive", flag 'R' "", flag 'a' "archive",
    flag 'p' "", flag 'd' "", flag 'L' "dereference", flag 'P' "no-dereference"]
  withUsage 1 known fun u c => do
    (← destinations u c).forM fun (p, target) => do
      let t ← files
      let deep := u.has 'r' || u.has 'R' || u.has 'a'
      match t.look ⟨p⟩ with
      | .error e => complain c (bytes "cannot stat " ++ Quoted.always p ++ bytes ": " ++ refusal e)
      | .ok (here, .directory) =>
        if !deep then
          complain c (bytes "-r not specified; omitting directory " ++ Quoted.always p)
        else
          match t.place ⟨unslashed target⟩ with
          | .error e =>
            complain c (bytes "cannot create directory " ++ Quoted.always target ++ bytes ": " ++
              refusal e)
          | .ok there =>
            if t.node? there.dropLast ≠ some .directory then
              complain c (bytes "cannot create directory " ++ Quoted.always target ++ bytes ": " ++
                refusal .notFound)
            else if here.isPrefixOf there then
              setFiles (copied t here there)
              complain c (bytes "cannot copy a directory, " ++ Quoted.always p ++
                bytes ", into itself, " ++ Quoted.always target)
            else match t.node? there with
              | none => setFiles (copied t here there)
              | some .directory => setFiles (copied t here there)
              | some _ =>
                complain c (bytes "cannot overwrite non-directory " ++ Quoted.always target ++
                  bytes " with directory " ++ Quoted.always p)
      | .ok (here, n) =>
        let data := match n with
          | .file k => k.data
          | _ => #[]
        if (t.look ⟨target⟩).toOption.any (·.1 = here) then
          complain c (Quoted.always p ++ bytes " and " ++ Quoted.always target ++
            bytes " are the same file")
        else if u.has 'n' ∧ t.exists? ⟨target⟩ then return ()
        else match t.write ⟨target⟩ data with
          | .ok t => setFiles t
          | .error .isDirectory =>
            complain c (if t.isDirectory ⟨target⟩ then
                bytes "cannot overwrite directory " ++ Quoted.always target ++
                  bytes " with non-directory"
              else bytes "cannot create regular file " ++ Quoted.always target ++ bytes ": " ++
                refusal .notDirectory)
          | .error e =>
            complain c (bytes "cannot create regular file " ++ Quoted.always target ++ bytes ": " ++
              refusal e)

/-- The names in a directory, in order. -/
def names (t : FileTree) (here : Place) : List Bytes :=
  let inside := t.nodes.filterMap fun m =>
    if here.isPrefixOf m.1 ∧ m.1.length = here.length + 1 then m.1.getLast? else none
  inside.mergeSort bytesLe

/-- A directory and those in it, at most `n` deep, each before what it holds. -/
def treeOf (t : FileTree) (shown : Place → List Bytes) : Nat → Bytes → List Bytes
  | 0, p => [p]
  | n + 1, p =>
    match t.look ⟨p⟩ with
    | .error _ => [p]
    | .ok (here, _) =>
      let inside := (shown here).filter fun name => t.node? (here ++ [name]) = some .directory
      p :: inside.flatMap fun name => treeOf t shown n (inDirectory p name)

/-- Lists names, one on a line. -/
def ls : Tool :=
  let known := [flag 'a' "all", flag 'A' "almost-all", flag '1' "", flag 'd' "directory",
    flag 'r' "reverse", flag 'R' "recursive", flag 'l' "", flag 'F' "classify", flag 'p' "",
    flag 'h' "human-readable", flag 't' "", flag 'S' "", flag 'U' "", flag 'f' ""]
  withUsage 2 known fun u c => do
    let t ← files
    let operands := if u.operands.isEmpty then [bytes "."] else u.operands
    let operands := operands.mergeSort bytesLe
    let marked (name : Bytes) (n : Option Node) : Bytes :=
      name ++ if n = some .directory ∧ (u.has 'F' ∨ u.has 'p') then bytes "/" else []
    let turned (xs : List Bytes) : List Bytes := if u.has 'r' then xs.reverse else xs
    operands.forM fun p => do
      match nodeAt t p with
      | .error e =>
        complainWith 2 c (bytes "cannot access " ++ Quoted.always p ++ bytes ": " ++ refusal e)
      | .ok _ => return ()
    let found := operands.filter fun p => (nodeAt t p).isOk
    let (dirs, others) := found.partition fun p => t.isDirectory ⟨p⟩ && !u.has 'd'
    (turned others).forM fun p => printLine (marked p (nodeAt t p).toOption)
    let titled := 1 < operands.length || u.has 'R'
    let shown (here : Place) : List Bytes :=
      turned ((names t here).filter fun n => u.has 'a' || u.has 'A' || n.head? ≠ some (byte '.'))
    let dots := if u.has 'a' then turned [bytes ".", bytes ".."] else []
    let rows (here : Place) : StateM Work Unit := do
      if !u.has 'r' then dots.forM fun n => printLine (marked n (some .directory))
      (shown here).forM fun n => printLine (marked n (t.node? (here ++ [n])))
      if u.has 'r' then dots.forM fun n => printLine (marked n (some .directory))
    let under := if u.has 'R' then (turned dirs).flatMap (treeOf t shown t.nodes.length)
      else turned dirs
    let _ ← under.foldlM (fun (first : Bool) p => do
      if titled then
        print ((if first then [] else [0x0A]) ++ p ++ bytes ":\n")
      match t.look ⟨p⟩ with
      | .ok (here, _) => rows here
      | .error _ => pure ()
      return false) others.isEmpty

end DownloadTriage.Tool
