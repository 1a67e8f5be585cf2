import DownloadTriage.Files.Tree
import DownloadTriage.Process.Script

/-!
# Questions

What `test` asks: whether files are there, and how texts and numbers compare.
-/

namespace DownloadTriage.Question

open Script

/-- Why a question has no answer. -/
inductive QuestionError where
  | unexpectedOperator (word : Bytes)
  | illegalNumber (word : Bytes)
  | argumentExpected (operator : Bytes)
  | tooDeep
  | closeExpected
  deriving DecidableEq, Repr

/-- What is said of a question without an answer. -/
def QuestionError.message : QuestionError → Bytes
  | unexpectedOperator w => w ++ bytes ": unexpected operator"
  | illegalNumber w => bytes "Illegal number: " ++ w
  | argumentExpected op => op ++ bytes ": argument expected"
  | tooDeep => bytes "too many words"
  | closeExpected => bytes "closing paren expected"

/-- An answer, or why there is none. -/
abbrev Answer := Except QuestionError Bool

/-- The kinds of file that a letter asks for. -/
def ofFile (t : FileTree) (letter : UInt8) (name : Bytes) : Bool :=
  match t.look ⟨name⟩ with
  | .error _ => false
  | .ok (_, n) =>
    if letter = byte 'f' then (match n with | .file _ => true | _ => false)
    else if letter = byte 'd' then n = .directory
    else if letter = byte 'c' then n = .device
    else if letter = byte 's' then (match n with
      | .file c => c.size ≠ 0
      | .directory => true
      | .device => false)
    else if letter = byte 'x' then n = .directory
    else (bytes "erwOG").contains letter

/-- The letters of questions about one word. -/
def unaryLetters : Bytes := bytes "bcdefghknprstuwxzLOGS"

/-- The letter of a question about one word. -/
def unary? : Bytes → Option UInt8
  | [0x2D, b] => if unaryLetters.contains b then some b else none
  | _ => none

/-- The answer to a question about one word. -/
def ofOne (t : FileTree) (letter : UInt8) (word : Bytes) : Bool :=
  if letter = byte 'n' then word ≠ []
  else if letter = byte 'z' then word = []
  else ofFile t letter word

/-- The questions about two words. -/
def binaries : List String :=
  ["=", "!=", "<", ">", "-eq", "-ne", "-gt", "-ge", "-lt", "-le", "-nt", "-ot", "-ef"]

/-- The question about two words. -/
def binary? (op : Bytes) : Option String := binaries.find? fun o => bytes o = op

/-- A whole number with blanks around it. -/
def whole (word : Bytes) : Except QuestionError Int :=
  let blank (b : UInt8) : Bool := b = 0x20 || (9 ≤ b && b ≤ 13)
  let trimmed := ((word.dropWhile blank).reverse.dropWhile blank).reverse
  let value : Option Int := match trimmed with
    | 0x2D :: ds => (number? ds).map fun n => -(n : Int)
    | 0x2B :: ds => (number? ds).map Int.ofNat
    | ds => (number? ds).map Int.ofNat
  match value with
  | some n => .ok n
  | none => .error (.illegalNumber word)

/-- Whether one text comes before another. -/
def before : Bytes → Bytes → Bool
  | _, [] => false
  | [], _ :: _ => true
  | a :: as, b :: bs => a < b || (a == b && before as bs)

/-- The answer to a question about two words. All files are of the same age. -/
def ofTwo (t : FileTree) (op : String) (a b : Bytes) : Answer := do
  match op with
  | "=" => return a = b
  | "!=" => return a ≠ b
  | "<" => return before a b
  | ">" => return before b a
  | "-nt" => return false
  | "-ot" => return false
  | "-ef" =>
    match t.look ⟨a⟩, t.look ⟨b⟩ with
    | .ok x, .ok y => return x.1 = y.1
    | _, _ => return false
  | op =>
    let x ← whole a
    let y ← whole b
    return match op with
      | "-eq" => x = y
      | "-ne" => x ≠ y
      | "-gt" => y < x
      | "-ge" => y ≤ x
      | "-lt" => x < y
      | _ => x ≤ y

mutual

/-- Questions joined by `-o`. -/
def anyOf (t : FileTree) (fuel : Nat) (ws : List Bytes) :
    Except QuestionError (Bool × List Bytes) :=
  match fuel with
  | 0 => .error .tooDeep
  | fuel + 1 => do
    let (a, rest) ← allOf t fuel ws
    match rest with
    | w :: more =>
      if w = bytes "-o" then
        let (b, rest) ← anyOf t fuel more
        return (a || b, rest)
      else return (a, rest)
    | [] => return (a, [])

/-- Questions joined by `-a`. -/
def allOf (t : FileTree) (fuel : Nat) (ws : List Bytes) :
    Except QuestionError (Bool × List Bytes) :=
  match fuel with
  | 0 => .error .tooDeep
  | fuel + 1 => do
    let (a, rest) ← single t fuel ws
    match rest with
    | w :: more =>
      if w = bytes "-a" then
        let (b, rest) ← allOf t fuel more
        return (a && b, rest)
      else return (a, rest)
    | [] => return (a, [])

/-- One question. -/
def single (t : FileTree) (fuel : Nat) (ws : List Bytes) :
    Except QuestionError (Bool × List Bytes) :=
  match fuel with
  | 0 => .error .tooDeep
  | fuel + 1 =>
    match ws with
    | [] => .ok (false, [])
    | w :: rest =>
      match (rest.head?.bind binary?), rest.drop 1 with
      | some op, b :: more => do return (← ofTwo t op w b, more)
      | some op, [] => .error (.argumentExpected (bytes op))
      | none, _ =>
        if w = bytes "!" ∧ rest ≠ [] then do
          let (a, rest) ← single t fuel rest
          return (!a, rest)
        else if w = bytes "(" ∧ rest ≠ [] then do
          let (a, rest) ← anyOf t fuel rest
          match rest with
          | close :: more => if close = bytes ")" then return (a, more) else throw .closeExpected
          | [] => throw .closeExpected
        else match unary? w, rest with
          | some letter, a :: more => .ok (ofOne t letter a, more)
          | _, _ => .ok (w ≠ [], rest)

end

/-- The answer to the words of a question. -/
def answer (t : FileTree) (ws : List Bytes) : Answer := do
  match ws with
  | [] => return false
  | [a] => return a ≠ []
  | ws =>
    let (a, rest) ← anyOf t (2 * ws.length + 4) ws
    match rest with
    | [] => return a
    | rest => throw (.unexpectedOperator (ws.getD (ws.length - rest.length - 1) []))

end DownloadTriage.Question
