import DownloadTriage.Text.Numeral
import DownloadTriage.Text.Split

/-!
# IPv4 addresses

Four numbers with dots between them. A number has no leading zero, so that every address has one
text.
-/

namespace DownloadTriage

/-- An IPv4 address. -/
structure Address where
  a : UInt8
  b : UInt8
  c : UInt8
  d : UInt8
  deriving DecidableEq, Repr

namespace Address

/-- One of the four numbers. -/
def octet? (cs : List Char) : Option UInt8 :=
  match Numeral.digits? cs with
  | some n =>
    if n ≤ 255 ∧ (cs.length = 1 ∨ cs.head? ≠ some '0') then some (UInt8.ofNat n) else none
  | none => none

/-- The address that a text spells. -/
def ofText? (s : String) : Option Address :=
  match split '.' s.toList with
  | [w, x, y, z] => do some ⟨← octet? w, ← octet? x, ← octet? y, ← octet? z⟩
  | _ => none

/-- The first three numbers with a dot after each. -/
def network (x : Address) : String :=
  toString x.a.toNat ++ "." ++ toString x.b.toNat ++ "." ++ toString x.c.toNat ++ "."

/-- The text of an address. -/
def text (x : Address) : String := x.network ++ toString x.d.toNat

end Address

end DownloadTriage
