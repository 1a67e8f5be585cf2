/-!
# Reading an open file

A file that is open hands out its bytes read by read, in order. How many a read brings is the system's
choice: no more than there is room for, and at least one as long as there is one. A read that brings
nothing says that the file is at its end.
-/

namespace DownloadTriage

/-- How many bytes the system has ready at each read. -/
abbrev Pace := Nat → { n : Nat // 0 < n }

/-- A file that is open for reading: what is not read yet, and the pace of the reads to come. -/
structure OpenFile where
  unread : List UInt8
  pace : Pace

namespace OpenFile

/-- What a read brings that has room for so many bytes. -/
def next (f : OpenFile) (room : Nat) : List UInt8 := f.unread.take (min room (f.pace 0))

/-- The file after a read. -/
def rest (f : OpenFile) (room : Nat) : OpenFile :=
  ⟨f.unread.drop (min room (f.pace 0)), fun i => f.pace (i + 1)⟩

theorem next_append_rest (f : OpenFile) (room : Nat) :
    f.next room ++ (f.rest room).unread = f.unread := List.take_append_drop _ _

/-- What is read until a read brings nothing. -/
def reads (f : OpenFile) (room : Nat) : List (List UInt8) :=
  if f.next room = [] then [] else f.next room :: (f.rest room).reads room
termination_by f.unread.length
decreasing_by
  rename_i h
  rw [← f.next_append_rest room, List.length_append]
  exact Nat.lt_add_of_pos_left (List.length_pos_iff.2 h)

end OpenFile

end DownloadTriage
