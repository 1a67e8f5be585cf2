import DownloadTriage.Host.Address
import DownloadTriage.Text.Percent
import DownloadTriage.Text.Utf8

/-!
# Hosts in a URL

What stands between `//` and the path: who asks, a host and a port. Where hosts are names of
machines, they are of ASCII, in lower case, and a host whose last label is a number is an IPv4
address. Elsewhere a host is any text without delimiters.
-/

namespace DownloadTriage

/-- The part of a URL that says who asks whom. -/
structure Authority where
  user : String
  password : Option String
  host : String
  port : Option Nat
  deriving DecidableEq, Repr

namespace Authority

/-- What is escaped in a user's name and password. -/
def escapedInUser : String := " \"#<>?`\x7b\x7d/:;=@[\\]^|"

/-- Characters that no host has. -/
def isDelimiter (c : Char) : Bool := c.toNat = 0 || "\t\n\x0d #/:<>?@[\\]^|".toList.contains c

/-- Characters that no name of a machine has. -/
def isNoNameCharacter (c : Char) : Bool :=
  isDelimiter c || c = '%' || c.toNat < 0x20 || 0x7F ≤ c.toNat

/-- The number that digits of a base spell. No digits spell 0. -/
def digitsOf? (base : Nat) (cs : List Char) : Option Nat :=
  cs.foldlM (fun n c =>
    (Hex.value? (UInt8.ofNat c.toNat)).bind fun d =>
      if d < base ∧ c.toNat < 0x80 then some (n * base + d) else none) 0

/-- The number that one part of an address spells: decimal, octal after `0`, hexadecimal after
`0x`. -/
def part? : List Char → Option Nat
  | [] => none
  | '0' :: 'x' :: cs => digitsOf? 16 cs
  | '0' :: c :: cs => digitsOf? 8 (c :: cs)
  | cs => digitsOf? 10 cs

/-- The parts of a name, without an empty one at its end. -/
def labels (name : List Char) : List (List Char) :=
  let parts := split '.' name
  if 1 < parts.length && parts.getLast? == some [] then parts.dropLast else parts

/-- Whether a name can only be meant as an address. -/
def endsInNumber (name : List Char) : Bool :=
  match (labels name).getLast? with
  | some label => (!label.isEmpty && label.all Numeral.isDigit) || (part? label).isSome
  | none => false

/-- The address with these numbers, the last one filling all that is left. -/
def addressOf? (numbers : List Nat) : Option Address := do
  let last ← numbers.getLast?
  let firsts := numbers.dropLast
  if 3 < firsts.length ∨ firsts.any (255 < ·) ∨ Nat.pow 256 (4 - firsts.length) ≤ last then none
  else
    let shifted := firsts.mapIdx fun i n => n * Nat.pow 256 (3 - i)
    let n := shifted.foldl (· + ·) last
    some ⟨UInt8.ofNat (n / 0x1000000), UInt8.ofNat (n / 0x10000), UInt8.ofNat (n / 0x100),
      UInt8.ofNat n⟩

/-- A machine's name or address. -/
def machine? (cs : List Char) : Option String := do
  let decoded ← Utf8.decode? (Percent.decode (Utf8.bytes (String.ofList cs)))
  let name := decoded.toList.map Char.toLower
  if name.isEmpty ∨ name.any isNoNameCharacter then none
  else if endsInNumber name then
    return (← addressOf? (← (labels name).mapM part?)).text
  else return String.ofList name

/-- A host that need not be a machine. -/
def anyHost? (cs : List Char) : Option String :=
  if cs.any isDelimiter then none
  else some (String.ofList (Percent.encode "" (Utf8.bytes (String.ofList cs))))

/-- A port up to the largest. No digits are no port. -/
def port? (cs : List Char) : Option (Option Nat) :=
  if cs.isEmpty then some none
  else ((Numeral.digits? cs).filter (· < UInt16.size)).map some

/-- The characters before the last `@`, and those after it. -/
def cutAtLast (cs : List Char) : Option (List Char × List Char) :=
  let after := cs.reverse.takeWhile (· ≠ '@')
  if after.length = cs.length then none
  else some (cs.take (cs.length - after.length - 1), after.reverse)

/-- Who asks: a name, and a password after a colon. -/
def userOf (cs : List Char) : String × Option String :=
  let written (cs : List Char) : String :=
    String.ofList (Percent.encode escapedInUser (Utf8.bytes (String.ofList cs)))
  let password := (cs.dropWhile (· ≠ ':')).drop 1
  (written (cs.takeWhile (· ≠ ':')), if password.isEmpty then none else some (written password))

/-- The authority that characters spell. Where hosts are machines there must be one, and the usual
port, `usual`, is left out. -/
def ofChars? (machines : Bool) (usual : Option Nat) (cs : List Char) : Option Authority := do
  let (who, place) := (cutAtLast cs).getD ([], cs)
  let (user, password) := userOf who
  let name := place.takeWhile (· ≠ ':')
  let port ← port? ((place.dropWhile (· ≠ ':')).drop 1)
  let host ← if machines then machine? name else anyHost? name
  if host.isEmpty && (!who.isEmpty || place.contains ':') then none
  else some ⟨user, password, host, if port = usual then none else port⟩

/-- The text of an authority. -/
def text (a : Authority) : String :=
  let password := match a.password with
    | some p => ":" ++ p
    | none => ""
  let port := match a.port with
    | some n => ":" ++ toString n
    | none => ""
  (if a.user.isEmpty && a.password.isNone then "" else a.user ++ password ++ "@") ++ a.host ++ port

/-- The authority without who asks, if it can be told who that is. -/
def anonymous (a : Authority) : Authority :=
  if (Utf8.decode? (Percent.decode (Utf8.bytes a.user))).isSome then
    { a with user := "", password := none }
  else a

end Authority

end DownloadTriage
