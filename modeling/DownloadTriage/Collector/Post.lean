import DownloadTriage.Http.Exchange

/-!
# Posts to a collector

A document that is posted, and what is known afterwards: the status of the answer, or why there is
none.
-/

namespace DownloadTriage

/-- A document that is posted. -/
structure Post where
  url : String
  body : Json
  timeoutMs : Nat

/-- Why a post has no status. -/
inductive PostError where
  | timeout
  | network (reason : String)
  | encoding (reason : String)
  deriving DecidableEq, Repr

/-- What is said of a failure. -/
def PostError.message : PostError → String
  | timeout => "Request timed out"
  | network r => "Network error: " ++ r
  | encoding r => "Could not encode request: " ++ r

/-- What is known after a post. -/
abbrev PostReply := Except PostError Nat

namespace Post

/-- The request of a post. -/
def request (p : Post) : HttpRequest := ⟨p.url, none, .json p.body, p.timeoutMs⟩

/-- A post by HTTP. -/
def send (x : Exchange) (p : Post) : PostReply :=
  match x.send p.request with
  | .ok r => .ok r.status
  | .error (.timeout _) => .error .timeout
  | .error e => .error (.network e.message)

end Post

end DownloadTriage
