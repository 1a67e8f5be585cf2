import DownloadTriage.Decimal.Shortest

/-!
# JSON values

A document's value. Members of an object stay in the order in which they were written, repeated
names included; `canonical` orders them by name and lets the last of a name win.

A reader meets leaves that are well formed and stand for no value: a number out of range, a string
that is not text. They are kept as `unreadable`, so that a document that never uses them can still
be used; `isReadable` says there is none.
-/

namespace DownloadTriage

/-- A number: an integer of at most 64 bits, or a double. -/
inductive Json.Number where
  | integer (i : Int)
  | float (x : Binary64)
  deriving DecidableEq, Repr

/-- The value of a document. -/
inductive Json where
  | null
  | bool (b : Bool)
  | num (n : Json.Number)
  | str (s : String)
  | arr (items : List Json)
  | obj (members : List (String × Json))
  | unreadable
  deriving Repr, Inhabited

namespace Json

/-- A natural number. -/
def nat (n : Nat) : Json := num (.integer n)

/-- A double; what is not finite has no number and is null. -/
def float (x : Binary64) : Json := if x.isFinite then num (.float x) else null

/-- A text, or null. -/
def optStr : Option String → Json
  | some s => str s
  | none => null

/-- A list of texts. -/
def strs (ss : List String) : Json := arr (ss.map str)

/-- The first member of that name. -/
def member? (name : String) : Json → Option Json
  | obj ms => ms.lookup name
  | _ => none

mutual

/-- How deep lists and objects are nested. -/
def depth : Json → Nat
  | arr items => depthOfItems items + 1
  | obj members => depthOfMembers members + 1
  | _ => 0

/-- The deepest nesting among items. -/
def depthOfItems : List Json → Nat
  | [] => 0
  | v :: vs => max (depth v) (depthOfItems vs)

/-- The deepest nesting among members. -/
def depthOfMembers : List (String × Json) → Nat
  | [] => 0
  | (_, v) :: ms => max (depth v) (depthOfMembers ms)

end

mutual

/-- Whether no leaf is unreadable. -/
def isReadable : Json → Bool
  | arr items => areReadable items
  | obj members => membersReadable members
  | unreadable => false
  | _ => true

/-- Whether no leaf of an item is unreadable. -/
def areReadable : List Json → Bool
  | [] => true
  | v :: vs => isReadable v && areReadable vs

/-- Whether no leaf of a member is unreadable. -/
def membersReadable : List (String × Json) → Bool
  | [] => true
  | (_, v) :: ms => isReadable v && membersReadable ms

end

/-- Put a member at its place by name, over an older one of that name. -/
def put (name : String) (v : Json) : List (String × Json) → List (String × Json)
  | [] => [(name, v)]
  | (n, w) :: ms =>
    if name < n then (name, v) :: (n, w) :: ms
    else if name = n then (name, v) :: ms
    else (n, w) :: put name v ms

mutual

/-- The value with the members of every object ordered by name, the last of a name kept. -/
def canonical : Json → Json
  | arr items => arr (canonicalItems items)
  | obj members => obj (canonicalMembers [] members)
  | v => v

/-- `canonical` of every item. -/
def canonicalItems : List Json → List Json
  | [] => []
  | v :: vs => canonical v :: canonicalItems vs

/-- The members put in order one after the other. -/
def canonicalMembers (acc : List (String × Json)) : List (String × Json) → List (String × Json)
  | [] => acc
  | (n, v) :: ms => canonicalMembers (put n (canonical v) acc) ms

end

end Json

end DownloadTriage
