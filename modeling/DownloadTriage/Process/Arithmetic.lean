import DownloadTriage.Process.Script

/-!
# Arithmetic in scripts

Whole numbers of 64 bits that wrap, with the operators of C. A name stands for the number that its
value spells, and may be given another.
-/

namespace DownloadTriage.Arithmetic

open Script

/-- An operator between two numbers. -/
inductive Binary where
  | mul | div | mod | add | sub | left | right
  | less | atMost | greater | atLeast | equal | different
  | bitAnd | bitXor | bitOr | both | either
  deriving DecidableEq, Repr

/-- An operator in front of a number. -/
inductive Unary where
  | plus | minus | complement | opposite
  deriving DecidableEq, Repr

/-- An expression. -/
inductive Expression where
  | number (n : Int64)
  | named (name : Bytes)
  | unary (op : Unary) (e : Expression)
  | binary (op : Binary) (a b : Expression)
  /-- A name is given a value, which an operator may join to the one it has. -/
  | assign (name : Bytes) (op : Option Binary) (e : Expression)
  | choice (question yes no : Expression)
  deriving Inhabited

/-- Why there is no number. -/
inductive ArithmeticError where
  | expectingPrimary
  | expectingClose
  | expectingColon
  | expectingEnd
  | divisionByZero
  | illegalNumber (text : Bytes)
  deriving DecidableEq, Repr

/-- A token. -/
inductive Token where
  | number (digits : Bytes)
  | name (bs : Bytes)
  | operator (text : String)
  deriving DecidableEq, Repr

/-- The operators, longer ones first. -/
def operators : List String :=
  ["<<=", ">>=", "<<", ">>", "<=", ">=", "==", "!=", "&&", "||", "*=", "/=", "%=", "+=", "-=",
    "&=", "^=", "|=", "*", "/", "%", "+", "-", "<", ">", "&", "^", "|", "~", "!", "?", ":", "=",
    "(", ")"]

/-- The operators between two numbers, with how tightly they bind. -/
def binaries : List (String × Nat × Binary) :=
  [("*", 10, .mul), ("/", 10, .div), ("%", 10, .mod), ("+", 9, .add), ("-", 9, .sub),
    ("<<", 8, .left), (">>", 8, .right), ("<", 7, .less), ("<=", 7, .atMost), (">", 7, .greater),
    (">=", 7, .atLeast), ("==", 6, .equal), ("!=", 6, .different), ("&", 5, .bitAnd),
    ("^", 4, .bitXor), ("|", 3, .bitOr), ("&&", 2, .both), ("||", 1, .either)]

/-- A digit of base 16. -/
def isHexDigit (b : UInt8) : Bool :=
  isDigit b || (byte 'a' ≤ b && b ≤ byte 'f') || (byte 'A' ≤ b && b ≤ byte 'F')

/-- The numeral at the start: octal after `0`, hexadecimal after `0x`. -/
def numeral (bs : Bytes) : Bytes :=
  match bs with
  | 48 :: x :: h :: rest =>
    if (x = byte 'x' ∨ x = byte 'X') ∧ isHexDigit h then
      48 :: x :: (h :: rest).takeWhile isHexDigit
    else 48 :: (x :: h :: rest).takeWhile fun b => byte '0' ≤ b && b ≤ byte '7'
  | 48 :: rest => 48 :: rest.takeWhile fun b => byte '0' ≤ b && b ≤ byte '7'
  | bs => bs.takeWhile isDigit

/-- The tokens of an expression, at most `n`. What is no token is an operator that nothing knows. -/
def tokens : Nat → Bytes → List Token
  | 0, _ => []
  | _, [] => []
  | n + 1, b :: bs =>
    if b = 0x20 ∨ b = 0x09 ∨ b = 0x0A then tokens n bs
    else if isDigit b then
      let ds := numeral (b :: bs)
      .number ds :: tokens n ((b :: bs).drop ds.length)
    else if isNameStart b then
      .name ((b :: bs).takeWhile isNameByte) :: tokens n ((b :: bs).dropWhile isNameByte)
    else match operators.find? fun o => (bytes o).isPrefixOf (b :: bs) with
      | some o => .operator o :: tokens n ((b :: bs).drop o.length)
      | none => [.operator ""]

/-- The value of digits in a base. -/
def ofDigits? (base : Nat) (bs : Bytes) : Option Nat :=
  bs.foldlM (fun n b => do
    let d ← if isDigit b then some (b.toNat - 48)
      else if byte 'a' ≤ b ∧ b ≤ byte 'f' then some (b.toNat - 87)
      else if byte 'A' ≤ b ∧ b ≤ byte 'F' then some (b.toNat - 55)
      else none
    if d < base then some (n * base + d) else none) 0

/-- The number that a numeral spells: octal after `0`, hexadecimal after `0x`. The largest number
stands for those beyond it. -/
def ofNumeral? (bs : Bytes) : Option Int64 :=
  let n := match bs with
    | [] => none
    | [48] => some 0
    | 48 :: x :: ds =>
      if x = byte 'x' ∨ x = byte 'X' then ofDigits? 16 ds else ofDigits? 8 (x :: ds)
    | ds => ofDigits? 10 ds
  n.map fun n => Int64.ofInt (min (n : Int) Int64.maxValue.toInt)

/-- An expression and what comes after it, or why there is none. -/
abbrev Parsed := Except ArithmeticError (Expression × List Token)

mutual

/-- An expression, which a choice or an assignment may be. -/
def whole (fuel : Nat) (ts : List Token) : Parsed :=
  match fuel with
  | 0 => .error .expectingPrimary
  | fuel + 1 => do
    match ts with
    | .name x :: .operator "=" :: rest =>
      let (e, after) ← whole fuel rest
      return (.assign x none e, after)
    | _ =>
      match assignment? ts with
      | some (x, op, rest) =>
        let (e, after) ← whole fuel rest
        return (.assign x (some op) e, after)
      | none =>
        let (question, after) ← operands fuel 1 ts
        match after with
        | .operator "?" :: rest =>
          let (yes, after) ← whole fuel rest
          match after with
          | .operator ":" :: rest =>
            let (no, after) ← whole fuel rest
            return (.choice question yes no, after)
          | _ => throw .expectingColon
        | after => return (question, after)

/-- A name with an operator that also assigns. -/
def assignment? (ts : List Token) : Option (Bytes × Binary × List Token) :=
  match ts with
  | .name x :: .operator o :: rest =>
    (binaries.find? fun b => b.1 ++ "=" = o ∧ 3 ≤ b.2.1 ∧ b.2.1 ≠ 6 ∧ b.2.1 ≠ 7).map fun b =>
      (x, b.2.2, rest)
  | _ => none

/-- Operands joined by operators that bind at least so tightly. -/
def operands (fuel : Nat) (level : Nat) (ts : List Token) : Parsed :=
  match fuel with
  | 0 => .error .expectingPrimary
  | fuel + 1 => do
    let (e, after) ← primary fuel ts
    joined fuel level e after

/-- Further operands after a first one. -/
def joined (fuel : Nat) (level : Nat) (e : Expression) (ts : List Token) : Parsed :=
  match fuel with
  | 0 => .error .expectingPrimary
  | fuel + 1 => do
    match ts with
    | .operator o :: rest =>
      match binaries.lookup o with
      | some (l, op) =>
        if level ≤ l then
          let (b, after) ← operands fuel (l + 1) rest
          joined fuel level (.binary op e b) after
        else return (e, ts)
      | none => return (e, ts)
    | ts => return (e, ts)

/-- A number, a name, or an expression in parentheses, with operators in front of it. -/
def primary (fuel : Nat) (ts : List Token) : Parsed :=
  match fuel with
  | 0 => .error .expectingPrimary
  | fuel + 1 => do
    let front (op : Unary) (rest : List Token) : Parsed := do
      let (e, after) ← primary fuel rest
      return (.unary op e, after)
    match ts with
    | .number ds :: rest =>
      match ofNumeral? ds with
      | some n => return (.number n, rest)
      | none => throw (.illegalNumber ds)
    | .name x :: rest => return (.named x, rest)
    | .operator "+" :: rest => front .plus rest
    | .operator "-" :: rest => front .minus rest
    | .operator "~" :: rest => front .complement rest
    | .operator "!" :: rest => front .opposite rest
    | .operator "(" :: rest =>
      let (e, after) ← whole fuel rest
      match after with
      | .operator ")" :: after => return (e, after)
      | _ => throw .expectingClose
    | _ => throw .expectingPrimary

end

/-- The expression of a text. Without any it is 0. -/
def parse (text : Bytes) : Except ArithmeticError Expression := do
  let ts := tokens text.length text
  if ts = [] then return .number 0
  let (e, after) ← whole (4 * ts.length + 4) ts
  if after = [] then return e else throw .expectingEnd

/-- A truth as a number. -/
def ofBool (b : Bool) : Int64 := if b then 1 else 0

/-- What an operator makes of two numbers. -/
def Binary.apply (op : Binary) (a b : Int64) : Except ArithmeticError Int64 :=
  match op with
  | .mul => .ok (a * b)
  | .div => if b = 0 then .error .divisionByZero else .ok (a / b)
  | .mod => if b = 0 then .error .divisionByZero else .ok (a % b)
  | .add => .ok (a + b)
  | .sub => .ok (a - b)
  | .left => .ok (a <<< b)
  | .right => .ok (a >>> b)
  | .less => .ok (ofBool (a < b))
  | .atMost => .ok (ofBool (a ≤ b))
  | .greater => .ok (ofBool (b < a))
  | .atLeast => .ok (ofBool (b ≤ a))
  | .equal => .ok (ofBool (a = b))
  | .different => .ok (ofBool (a ≠ b))
  | .bitAnd => .ok (a &&& b)
  | .bitXor => .ok (a ^^^ b)
  | .bitOr => .ok (a ||| b)
  | .both => .ok (ofBool (a ≠ 0 && b ≠ 0))
  | .either => .ok (ofBool (a ≠ 0 || b ≠ 0))

/-- What an operator makes of a number. -/
def Unary.apply (op : Unary) (a : Int64) : Int64 :=
  match op with
  | .plus => a
  | .minus => -a
  | .complement => ~~~a
  | .opposite => ofBool (a = 0)

/-- The values of names, newest first. -/
abbrev Values := List (Bytes × Bytes)

/-- The text of a number. -/
def text (n : Int64) : Bytes := bytes (toString n.toInt)

/-- The number that the value of a name spells. No value is 0. -/
def valueOf (vs : Values) (name : Bytes) : Except ArithmeticError Int64 :=
  let bs := (vs.lookup name).getD []
  let blank (b : UInt8) : Bool := b = 0x20 || b = 0x09 || b = 0x0A
  let trimmed := ((bs.dropWhile blank).reverse.dropWhile blank).reverse
  match trimmed with
  | [] => .ok 0
  | 0x2D :: ds => match ofNumeral? ds with
    | some n => .ok (-n)
    | none => .error (.illegalNumber bs)
  | ds => match ofNumeral? (if ds.head? = some (byte '+') then ds.drop 1 else ds) with
    | some n => .ok n
    | none => .error (.illegalNumber bs)

/-- The number of an expression, and the values of names after it. -/
def eval (vs : Values) : Expression → Except ArithmeticError (Int64 × Values)
  | .number n => .ok (n, vs)
  | .named x => do return (← valueOf vs x, vs)
  | .unary op e => do
    let (a, vs) ← eval vs e
    return (op.apply a, vs)
  | .binary op a b => do
    let (x, vs) ← eval vs a
    if op = .both ∧ x = 0 then return (0, vs)
    else if op = .either ∧ x ≠ 0 then return (1, vs)
    else
      let (y, vs) ← eval vs b
      return (← op.apply x y, vs)
  | .assign x op e => do
    let (b, vs) ← eval vs e
    let n ← match op with
      | none => pure b
      | some op => do op.apply (← valueOf vs x) b
    return (n, (x, text n) :: vs)
  | .choice question yes no => do
    let (a, vs) ← eval vs question
    if a ≠ 0 then eval vs yes else eval vs no

/-- What is said where there is no number; the text may be said too. -/
def ArithmeticError.message (expression : Bytes) : ArithmeticError → Bytes
  | .illegalNumber t => bytes "Illegal number: " ++ t
  | e =>
    let why := match e with
      | .expectingPrimary => "expecting primary"
      | .expectingClose => "expecting ')'"
      | .expectingColon => "expecting ':'"
      | .divisionByZero => "division by zero"
      | _ => "expecting EOF"
    bytes ("arithmetic expression: " ++ why ++ ": \"") ++ expression ++ bytes "\""

/-- The number of a text, and the values of names after it. -/
def value (vs : Values) (text : Bytes) : Except ArithmeticError (Int64 × Values) := do
  eval vs (← parse text)

end DownloadTriage.Arithmetic
