import DownloadTriage.Collector.Post
import DownloadTriage.Event.Basic
import DownloadTriage.Host.Log
import DownloadTriage.Machine.Decoder
import DownloadTriage.Model.Error
import DownloadTriage.Report.Sample

/-!
# Programs

What the agent does over time is a program: it asks its surroundings, one request after the other,
and goes on with the reply. Between a request and its reply other programs may run, so a request is
the only point at which they meet.
-/

namespace DownloadTriage

/-- The servers of one round of discovery, kept until a time. -/
structure KeptRound where
  servers : List String
  expires : Nat
  deriving DecidableEq, Repr

/-- What a program may ask. -/
inductive Request where
  /-- Say something in the log. -/
  | log (line : LogLine)
  /-- The time in milliseconds. -/
  | now
  /-- Wait that many milliseconds. -/
  | sleep (ms : Nat)
  /-- The collector in use. -/
  | endpoint
  /-- Use a collector from now on, or none. -/
  | use (url : Option String)
  /-- The files as they are now. -/
  | files
  /-- Record the collector that answered in a file. -/
  | record (path : Option Path) (url : String)
  /-- The round of discovery kept in a slot. -/
  | keptRound (slot : Nat)
  /-- Keep a round of discovery in a slot. -/
  | keepRound (slot : Nat) (round : KeptRound)
  /-- Ask the network for collectors. -/
  | discover
  /-- Whether a collector is in good health. -/
  | probe (url : String)
  /-- Post a document to a collector. -/
  | post (p : Post)
  /-- Exchange by HTTP. -/
  | exchange (r : HttpRequest)
  /-- Tell the listeners. -/
  | emit (e : Event)
  /-- Hand a report over for upload. -/
  | submit (r : Report)
  /-- Ask the model about a file. -/
  | consult (path : Path) (fingerprint : Option Fingerprint)
  /-- Ask what stands in for the model. -/
  | standIn (path : Path) (fingerprint : Option Fingerprint)
  /-- Draw a sample report. -/
  | draw
  /-- Decode instructions. -/
  | decode (r : DecodeRequest)

/-- What comes back. -/
abbrev Reply : Request → Type
  | .log _ => Unit
  | .now => Nat
  | .sleep _ => Unit
  | .endpoint => Option String
  | .use _ => Unit
  | .files => FileTree
  | .record _ _ => Unit
  | .keptRound _ => Option KeptRound
  | .keepRound _ _ => Unit
  | .discover => List String
  | .probe _ => Bool
  | .post _ => PostReply
  | .exchange _ => Except HttpError HttpResponse
  | .emit _ => Unit
  | .submit _ => Unit
  | .consult _ _ => Except ModelError Report
  | .standIn _ _ => Except ModelError Report
  | .draw => Draw
  | .decode _ => Except DecodeError (List Instruction)

/-- A program with a result. -/
inductive Program (α : Type) where
  | done (a : α)
  | ask (r : Request) (next : Reply r → Program α)

namespace Program

variable {α β : Type}

/-- One program after another. -/
def bind : Program α → (α → Program β) → Program β
  | done a, f => f a
  | ask r next, f => ask r fun x => (next x).bind f

instance : Monad Program where
  pure := done
  bind := bind

/-- A request alone. -/
def request (r : Request) : Program (Reply r) := ask r done

/-- Say something in the log. -/
def log (line : LogLine) : Program Unit := request (.log line)

/-- Say several things in the log. -/
def logAll : List LogLine → Program Unit
  | [] => done ()
  | l :: ls => ask (.log l) fun _ => logAll ls

theorem bind_done (p : Program α) : p.bind done = p := by
  induction p with
  | done a => rfl
  | ask r next ih => simp only [bind, ih]

theorem bind_assoc {γ : Type} (p : Program α) (f : α → Program β) (g : β → Program γ) :
    (p.bind f).bind g = p.bind fun a => (f a).bind g := by
  induction p with
  | done a => rfl
  | ask r next ih => simp only [bind, ih]

end Program

end DownloadTriage
