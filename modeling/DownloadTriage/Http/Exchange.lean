import DownloadTriage.Http.Url
import DownloadTriage.Json.Basic

/-!
# HTTP exchanges

What is sent, what comes back, and what is said when nothing comes back.
-/

namespace DownloadTriage

/-- What a request carries. -/
inductive HttpBody where
  | none
  | json (v : Json)
  /-- One file in a form. -/
  | form (filename : String) (data : Array UInt8)

/-- A request. -/
structure HttpRequest where
  url : String
  /-- The key that stands for the sender. -/
  key : Option String
  body : HttpBody
  timeoutMs : Nat

/-- A response. -/
structure HttpResponse where
  status : Nat
  body : String
  deriving DecidableEq, Repr

/-- Why there is no response. -/
inductive HttpError where
  | timeout (url : String)
  | unreachable (url : String)
  /-- The request cannot be written; the URL is known if it is to blame. -/
  | unwritable (url : Option String)
  deriving DecidableEq, Repr

/-- What is said of a failure. -/
def HttpError.message : HttpError → String
  | timeout url => "error sending request for url (" ++ url ++ ")"
  | unreachable url => "error sending request for url (" ++ url ++ ")"
  | unwritable none => "builder error"
  | unwritable (some url) => "builder error for url (" ++ url ++ ")"

/-- The world beyond the network. -/
abbrev Exchange := HttpRequest → Except HttpError HttpResponse

/-- The exchange where nobody can be reached. -/
def Exchange.offline : Exchange := fun r => .error (.unreachable r.url)

/-- A status that says yes. -/
def isSuccess (status : Nat) : Bool := 200 ≤ status && status < 300

/-- A status that refuses what was sent. -/
def isRefusal (status : Nat) : Bool := 400 ≤ status && status < 500

/-- A key that fits in one line of a request. -/
def isWritableKey (key : String) : Bool :=
  key.toList.all fun c => c = '\t' || (0x20 ≤ c.toNat && c.toNat ≠ 0x7F)

/-- The URL that is asked, if a request can be written. The host is looked at before the key, and
the scheme after it. -/
def HttpRequest.target (r : HttpRequest) : Except HttpError String :=
  match Url.ofText? r.url with
  | none => .error (.unwritable none)
  | some u =>
    if !u.hasHost then .error (.unwritable (some u.text))
    else if !r.key.all isWritableKey then .error (.unwritable none)
    else if u.isHttp then .ok u.anonymous.text
    else .error (.unwritable (some u.anonymous.text))

/-- Sends a request if it can be written. -/
def Exchange.send (x : Exchange) (r : HttpRequest) : Except HttpError HttpResponse :=
  r.target.bind fun url => x { r with url }

end DownloadTriage
