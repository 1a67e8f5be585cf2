import DownloadTriage.Files.Tree
import DownloadTriage.Process.Script

/-!
# Sessions

What the processes of one launch share: the files, the streams that they read and write, the time
that has passed, and who has been told to end.
-/

namespace DownloadTriage

/-- What a descriptor leads to. -/
inductive Stream where
  /-- Collects what is written, newest first, each piece with its time. -/
  | collected (pieces : List (Nat × Bytes))
  /-- Holds what is left to read. -/
  | supply (left : Bytes)
  /-- A file, and the place in it where reading and writing go on. -/
  | file (here : Place) (offset : Nat) (append : Bool)
  /-- Takes anything and gives nothing. -/
  | nowhere

namespace Stream

/-- What was collected, in the order of time. -/
def text : Stream → Bytes
  | collected pieces =>
    ((pieces.reverse.mergeSort fun a b => a.1 ≤ b.1).map (·.2)).flatten
  | _ => []

end Stream

/-- What processes share. -/
structure Session where
  files : FileTree
  streams : Array Stream
  now : Nat
  /-- Until when a process in the background keeps the output open, by its number. -/
  held : List (Nat × Nat)
  /-- Something never ends. -/
  endless : Bool
  /-- Who was ended by which signal. -/
  killed : List (Nat × Nat)
  /-- The number of the next process. -/
  next : Nat
  /-- The files that were made programs. -/
  programs : List Place

namespace Session

/-- The streams that a launch begins with: an input without anything, the output and the errors. -/
def begin (files : FileTree) (first : Nat) : Session :=
  ⟨files, #[.nowhere, .collected [], .collected []], 0, [], false, [], first, []⟩

/-- The stream of a number. -/
def stream (s : Session) (i : Nat) : Stream := s.streams.getD i .nowhere

/-- Put a stream in the place of another. -/
def setStream (s : Session) (i : Nat) (x : Stream) : Session :=
  { s with streams := s.streams.setIfInBounds i x }

/-- A further stream, and its number. -/
def add (s : Session) (x : Stream) : Nat × Session :=
  (s.streams.size, { s with streams := s.streams.push x })

/-- The bytes of the file at a place. -/
def content (s : Session) (here : Place) : Bytes :=
  match s.files.node? here with
  | some (.file c) => c.data.toList
  | _ => []

/-- Write to a stream. A file is filled up to where writing goes on. -/
def write (s : Session) (i : Nat) (bs : Bytes) : Session :=
  match s.stream i with
  | .collected pieces => s.setStream i (.collected ((s.now, bs) :: pieces))
  | .file here offset append =>
    let old := s.content here
    let offset := if append then old.length else offset
    let new := old.take offset ++ List.replicate (offset - old.length) 0 ++ bs ++
      old.drop (offset + bs.length)
    { s.setStream i (.file here (offset + bs.length) append) with
      files := s.files.put here (.file (.bytes new.toArray)) }
  | _ => s

/-- What is left to read of a stream. -/
def unread (s : Session) (i : Nat) : Bytes :=
  match s.stream i with
  | .supply left => left
  | .file here offset _ => (s.content here).drop offset
  | _ => []

/-- Leave that much of a stream to read. -/
def leave (s : Session) (i : Nat) (left : Bytes) : Session :=
  match s.stream i with
  | .supply _ => s.setStream i (.supply left)
  | .file here _ append => s.setStream i (.file here ((s.content here).length - left.length) append)
  | _ => s

/-- Let time pass; without a number it never ends. -/
def wait (s : Session) (ms : Option Nat) : Session :=
  match ms with
  | some n => { s with now := s.now + n }
  | none => { s with endless := true }

/-- The signal that ended a process. -/
def signalOf? (s : Session) (process : Nat) : Option Nat := s.killed.lookup process

/-- Tell a process to end. The first signal counts. -/
def kill (s : Session) (process signal : Nat) : Session :=
  { s with
    killed := s.killed ++ [(process, signal)]
    held := s.held.map fun h => if h.1 = process then (h.1, min h.2 s.now) else h }

/-- A number for a further process. -/
def fork (s : Session) : Nat × Session := (s.next, { s with next := s.next + 1 })

/-- When the output is closed on all sides. -/
def endMs (s : Session) : Option Nat :=
  if s.endless then none else some ((s.held.map (·.2)).foldl max s.now)

end Session

end DownloadTriage
