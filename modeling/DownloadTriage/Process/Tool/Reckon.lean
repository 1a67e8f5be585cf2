import DownloadTriage.Process.Tool.Search

/-!
# A tool that reckons

`expr` reckons with its arguments, which are numbers, texts, operators and parentheses.
-/

namespace DownloadTriage.Tool

open Script

namespace Reckon

/-- Why the arguments have no value. -/
inductive Defect where
  | missing
  | missingAfter (word : Bytes)
  | unexpected (word : Bytes)
  | unclosed (word : Bytes)
  | notNumber
  | divisionByZero
  | expression (e : Regex.Defect)

/-- The words for a defect. -/
def Defect.message : Defect → Bytes
  | missing => bytes "missing operand"
  | missingAfter word => bytes "syntax error: missing argument after " ++ Quoted.always word
  | unexpected word => bytes "syntax error: unexpected argument " ++ Quoted.always word
  | unclosed word => bytes "syntax error: expecting ')' after " ++ Quoted.always word
  | notNumber => bytes "non-integer argument"
  | divisionByZero => bytes "division by zero"
  | expression e => bytes e.message

/-- The number that a text writes down. -/
def integer? : Bytes → Option Int
  | 0x2D :: bs => (number? bs).map fun n => -(n : Int)
  | bs => (number? bs).map Int.ofNat

/-- The text of a number. -/
def ofInt (n : Int) : Bytes := bytes (toString n)

/-- Whether a value counts as none: an empty text, or zeros. -/
def isNone (bs : Bytes) : Bool := bs == [] || (integer? bs).any (· == 0)

/-- What an expression takes of the start of a text: its first group, or how long it is. -/
def matched (text pattern : Bytes) : Except Defect Bytes :=
  match Regex.ofBytes? false false pattern with
  | .error e => .error (.expression e)
  | .ok (r, groups) =>
    let line := text.toArray
    match Regex.longest? (r.ways ⟨false, false⟩ line ⟨0, []⟩) with
    | some f => .ok (if groups = 0 then decimal f.stop else f.part 0 line 1)
    | none => .ok (if groups = 0 then bytes "0" else [])

/-- Two values under a comparison of numbers, or of texts. -/
def compared (op : Bytes) (a b : Bytes) : Option Bool :=
  let order := match integer? a, integer? b with
    | some m, some n => compare m n
    | _, _ => if a = b then .eq else if bytesLe a b then .lt else .gt
  [(bytes "<", order == .lt), (bytes "<=", order != .gt), (bytes "=", order == .eq),
    (bytes "==", order == .eq), (bytes "!=", order != .eq), (bytes ">=", order != .lt),
    (bytes ">", order == .gt)].lookup op

/-- Two numbers under an operator; the quotient goes toward zero. -/
def reckoned (op : Bytes) (a b : Bytes) : Except Defect Bytes :=
  match integer? a, integer? b with
  | some m, some n =>
    if op = bytes "+" then .ok (ofInt (m + n))
    else if op = bytes "-" then .ok (ofInt (m - n))
    else if op = bytes "*" then .ok (ofInt (m * n))
    else if n = 0 then .error .divisionByZero
    else if op = bytes "/" then .ok (ofInt (m.tdiv n))
    else .ok (ofInt (m.tmod n))
  | _, _ => .error .notNumber

/-- The operators, the loosest first. -/
def levels : List (List Bytes) :=
  [["|"], ["&"], ["<", "<=", "=", "==", "!=", ">=", ">"], ["+", "-"], ["*", "/", "%"], [":"]].map
    (·.map bytes)

/-- Two values under an operator. -/
def applied (op : Bytes) (a b : Bytes) : Except Defect Bytes :=
  if op = bytes "|" then .ok (if !isNone a then a else if !isNone b then b else bytes "0")
  else if op = bytes "&" then .ok (if !isNone a && !isNone b then a else bytes "0")
  else if op = bytes ":" then matched a b
  else match compared op a b with
    | some yes => .ok (if yes then bytes "1" else bytes "0")
    | none => reckoned op a b

/-- The next argument, where `last` is the one before it. -/
def taken (last : Option Bytes) : List Bytes → Except Defect (Bytes × List Bytes)
  | [] => .error (match last with
    | some w => .missingAfter w
    | none => .missing)
  | w :: ws => .ok (w, ws)

mutual

/-- A value under the operators of some levels, at most `n` deep. -/
def value : Nat → List (List Bytes) → Option Bytes → List Bytes →
    Except Defect (Bytes × Option Bytes × List Bytes)
  | 0, _, _, _ => .error .missing
  | n + 1, [], last, ws => single n last ws
  | n + 1, ops :: looser, last, ws => do
    let (a, last, ws) ← value n looser last ws
    further n ops looser a last ws

/-- What follows a value on its level. -/
def further : Nat → List Bytes → List (List Bytes) → Bytes → Option Bytes → List Bytes →
    Except Defect (Bytes × Option Bytes × List Bytes)
  | 0, _, _, a, last, ws => .ok (a, last, ws)
  | n + 1, ops, looser, a, last, ws =>
    match ws with
    | [] => .ok (a, last, [])
    | w :: rest =>
      if ops.contains w then do
        let (b, last, rest) ← value n looser (some w) rest
        further n ops looser (← applied w a b) last rest
      else .ok (a, last, w :: rest)

/-- A single value. -/
def single : Nat → Option Bytes → List Bytes → Except Defect (Bytes × Option Bytes × List Bytes)
  | 0, _, _ => .error .missing
  | n + 1, last, ws => do
    let (w, rest) ← taken last ws
    if w = bytes "(" then
      let (a, last, rest) ← value n levels (some w) rest
      match rest with
      | close :: rest =>
        if close = bytes ")" then return (a, some close, rest)
        else throw (.unclosed (last.getD []))
      | [] => throw (.unclosed (last.getD []))
    else if w = bytes ")" then throw (.unexpected w)
    else if w = bytes "+" ∧ last ≠ some (bytes "+") then
      let (a, rest) ← taken (some w) rest
      return (a, some a, rest)
    else if w = bytes "length" then
      let (a, last, rest) ← single n (some w) rest
      return (decimal a.length, last, rest)
    else if w = bytes "index" then
      let (a, last, rest) ← single n (some w) rest
      let (b, last, rest) ← single n last rest
      return (decimal ((a.findIdx? b.contains).elim 0 (· + 1)), last, rest)
    else if w = bytes "match" then
      let (a, last, rest) ← single n (some w) rest
      let (b, last, rest) ← single n last rest
      return (← matched a b, last, rest)
    else if w = bytes "substr" then
      let (a, last, rest) ← single n (some w) rest
      let (i, last, rest) ← single n last rest
      let (k, last, rest) ← single n last rest
      let part : Bytes := match integer? i, integer? k with
        | some i, some k => if 0 < i ∧ 0 < k then (a.drop (i.toNat - 1)).take k.toNat else []
        | _, _ => []
      return (part, last, rest)
    else return (w, some w, rest)

end

/-- The value of arguments. -/
def ofWords (ws : List Bytes) : Except Defect Bytes := do
  let (a, _, rest) ← value (16 * ws.length + 16) levels none ws
  match rest with
  | [] => return a
  | w :: _ => throw (.unexpected w)

end Reckon

/-- Prints what its arguments come to. -/
def expr : Tool := fun c => do
  let ws := if c.args.head? = some (bytes "--") then c.args.drop 1 else c.args
  match Reckon.ofWords ws with
  | .ok a =>
    printLine a
    endWith (if Reckon.isNone a then 1 else 0)
  | .error .missing => misused 2 c Reckon.Defect.missing.message
  | .error e => complainWith 2 c e.message

end DownloadTriage.Tool
