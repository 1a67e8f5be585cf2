import DownloadTriage.Http.Authority

/-!
# URLs

The form in which a URL is used and shown: one spelling of the scheme and the host, the path
without steps that lead nowhere, escapes for what may not stand for itself.

Where hosts are machines, either slash will do, any number of them come before the host, and there
is always a path.
-/

namespace DownloadTriage

/-- An absolute URL. -/
structure Url where
  scheme : String
  authority : Option Authority
  path : String
  query : Option String
  fragment : Option String
  deriving DecidableEq, Repr

namespace Url

/-- What a scheme's hosts are. -/
inductive Hosts where
  /-- Machines, with a usual port. -/
  | machines (port : Nat)
  /-- The machine that has a file, or none for this machine. -/
  | ofFiles
  | anything
  deriving DecidableEq, Repr

/-- What the hosts of a scheme are. -/
def hostsOf : String → Hosts
  | "http" => .machines 80
  | "https" => .machines 443
  | "ws" => .machines 80
  | "wss" => .machines 443
  | "ftp" => .machines 21
  | "file" => .ofFiles
  | _ => .anything

/-- Whether URLs with such hosts take either slash and always have a path. -/
def Hosts.isUsual : Hosts → Bool
  | anything => false
  | _ => true

/-- The characters that count: controls and spaces around a URL mean nothing, nor do tabs and line
breaks in it. -/
def significant (cs : List Char) : List Char :=
  let outer (c : Char) : Bool := c.toNat ≤ 0x20
  let inner := ((cs.dropWhile outer).reverse.dropWhile outer).reverse
  inner.filter fun c => c ≠ '\t' && c ≠ '\n' && c.toNat ≠ 0x0D

/-- A scheme in lower case and what comes after its colon. -/
def scheme? (cs : List Char) : Option (String × List Char) :=
  let isInner (c : Char) : Bool := c.isAlphanum || c = '+' || c = '-' || c = '.'
  match cs.takeWhile isInner, cs.dropWhile isInner with
  | c :: name, ':' :: rest =>
    if c.isAlpha then some (String.ofList ((c :: name).map Char.toLower), rest) else none
  | _, _ => none

/-- Text with escapes. -/
def written (escaped : String) (cs : List Char) : String :=
  String.ofList (Percent.encode escaped (Utf8.bytes (String.ofList cs)))

/-- What is escaped in a fragment. -/
def escapedInFragment : String := " \"<>`"

/-- What is escaped in a path. -/
def escapedInPath : String := " \"<>`#?\x7b\x7d"

/-- What is escaped in a query. -/
def escapedInQuery (hosts : Hosts) : String := if hosts.isUsual then " \"#<>'" else " \"#<>"

/-- The parts before and after the first of a character, without it. -/
def cut (c : Char) (cs : List Char) : List Char × Option (List Char) :=
  match cs.dropWhile (· ≠ c) with
  | [] => (cs, none)
  | _ :: after => (cs.takeWhile (· ≠ c), some after)

/-- The steps of a path with the dots that a step may write as escapes. -/
def plainDots : List Char → List Char
  | '%' :: '2' :: 'e' :: cs => '.' :: plainDots cs
  | '%' :: '2' :: 'E' :: cs => '.' :: plainDots cs
  | c :: cs => c :: plainDots cs
  | [] => []

/-- Walk the steps of a path: one dot stays, two go back. A walk that ends so ends in a folder. -/
def walk (walked : List String) : List (List Char) → List String
  | [] => walked
  | step :: rest =>
    let folder : List String := if rest.isEmpty then [""] else []
    match plainDots step with
    | ['.'] => walk (walked ++ folder) rest
    | ['.', '.'] => walk (walked.dropLast ++ folder) rest
    | _ => walk (walked ++ [written escapedInPath step]) rest

/-- Whether a character is a slash. -/
def Hosts.isSlash (hosts : Hosts) (c : Char) : Bool := c = '/' || (hosts.isUsual && c = '\\')

/-- The text of a path whose first slash is gone. -/
def pathText (hosts : Hosts) (cs : List Char) : String :=
  let slashed := cs.map fun c => if hosts.isSlash c then '/' else c
  String.join ((walk [] (split '/' slashed)).map ("/" ++ ·))

/-- The authority of a URL. That of a file is a machine alone. -/
def authority? (hosts : Hosts) (cs : List Char) : Option Authority :=
  match hosts with
  | .machines port => Authority.ofChars? true (some port) cs
  | .anything => Authority.ofChars? false none cs
  | .ofFiles =>
    if cs.isEmpty then some ⟨"", none, "", none⟩
    else (Authority.machine? cs).map fun h => ⟨"", none, if h = "localhost" then "" else h, none⟩

/-- The authority and the path of a URL, from after the slashes that announce an authority. -/
def place? (hosts : Hosts) (cs : List Char) : Option (Option Authority × String) := do
  let authority ← authority? hosts (cs.takeWhile fun c => !hosts.isSlash c)
  let after := cs.dropWhile fun c => !hosts.isSlash c
  some (some authority,
    if after.isEmpty && !hosts.isUsual then "" else pathText hosts (after.drop 1))

/-- The authority and the path of a URL, from after its scheme. Without a slash, a path is text
where hosts may be anything. -/
def hierarchy? (hosts : Hosts) (cs : List Char) : Option (Option Authority × String) :=
  match hosts, cs with
  | .machines _, cs => place? hosts (cs.dropWhile hosts.isSlash)
  | _, c :: d :: rest =>
    if hosts.isSlash c && hosts.isSlash d then place? hosts rest
    else if hosts.isUsual then some (some ⟨"", none, "", none⟩, pathText hosts (withoutSlash cs))
    else if hosts.isSlash c then some (none, pathText hosts (d :: rest))
    else some (none, written "" cs)
  | .ofFiles, cs => some (some ⟨"", none, "", none⟩, pathText hosts (withoutSlash cs))
  | .anything, ['/'] => some (none, "/")
  | .anything, cs => some (none, written "" cs)
where
  /-- The characters after one slash, if there is one. -/
  withoutSlash (cs : List Char) : List Char :=
    match cs with
    | c :: rest => if hosts.isSlash c then rest else cs
    | [] => []

/-- The URL that a text spells, if it is absolute. -/
def ofText? (s : String) : Option Url := do
  let (scheme, rest) ← scheme? (significant s.toList)
  let (before, fragment) := cut '#' rest
  let (hierarchy, query) := cut '?' before
  let hosts := hostsOf scheme
  let (authority, path) ← hierarchy? hosts hierarchy
  some ⟨scheme, authority, path, query.map (written (escapedInQuery hosts)),
    fragment.map (written escapedInFragment)⟩

/-- The text of a URL. -/
def text (u : Url) : String :=
  let place := match u.authority with
    | some a => "//" ++ a.text
    | none => if u.path.startsWith "//" then "/." else ""
  let query := match u.query with
    | some q => "?" ++ q
    | none => ""
  let fragment := match u.fragment with
    | some f => "#" ++ f
    | none => ""
  u.scheme ++ ":" ++ place ++ u.path ++ query ++ fragment

/-- Whether a URL names a host. -/
def hasHost (u : Url) : Bool := u.authority.any fun a => !a.host.isEmpty

/-- The URL without who asks. -/
def anonymous (u : Url) : Url := { u with authority := u.authority.map Authority.anonymous }

/-- Whether a URL can be asked by HTTP. -/
def isHttp (u : Url) : Bool := u.scheme = "http" || u.scheme = "https"

end Url

end DownloadTriage
