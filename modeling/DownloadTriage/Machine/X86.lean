import DownloadTriage.Machine.Decoder
import DownloadTriage.Text.Hex

/-!
# A subset of the x86 instructions

The instructions of a function's frame: pushes and pops, moves and exclusive ors between registers,
returns and a few without operands. Decoding ends at the first bytes that form none of them.
-/

namespace DownloadTriage.X86

/-- The 64-bit registers in the order of their numbers. -/
def registers64 : List String := ["rax", "rcx", "rdx", "rbx", "rsp", "rbp", "rsi", "rdi"]

/-- The 32-bit registers in the order of their numbers. -/
def registers32 : List String := ["eax", "ecx", "edx", "ebx", "esp", "ebp", "esi", "edi"]

/-- The name of a register. -/
def register (wide : Bool) (n : Nat) : String :=
  (if wide then registers64 else registers32).getD n ""

/-- An immediate operand: decimal up to nine, hexadecimal above. -/
def immediate (n : Nat) : String := if n ≤ 9 then toString n else Hex.prefixed n

/-- A move or exclusive or between the two registers that a byte names. -/
def registerPair (wide : Bool) (mnemonic : String) (size : Nat) (modRm : UInt8) :
    Option (Nat × String × String) :=
  if modRm < 0xC0 then none
  else
    let m := modRm.toNat
    some (size, mnemonic, register wide (m % 8) ++ ", " ++ register wide (m / 8 % 8))

/-- An instruction that has the byte `op` and a register pair. -/
def pairOp? (wide : Bool) (size : Nat) (op modRm : UInt8) : Option (Nat × String × String) :=
  if op = 0x31 then registerPair wide "xor" size modRm
  else if op = 0x89 then registerPair wide "mov" size modRm
  else none

/-- The first instruction of some bytes: its size, mnemonic and operands. -/
def decodeOne (is64 : Bool) : List UInt8 → Option (Nat × String × String)
  | [] => none
  | b :: rest =>
    if 0x50 ≤ b && b ≤ 0x57 then some (1, "push", register is64 (b.toNat - 0x50))
    else if 0x58 ≤ b && b ≤ 0x5F then some (1, "pop", register is64 (b.toNat - 0x58))
    else if b = 0x90 then some (1, "nop", "")
    else if b = 0xCC then some (1, "int3", "")
    else if b = 0xC9 then some (1, "leave", "")
    else if b = 0xF4 then some (1, "hlt", "")
    else if b = 0xC3 then some (1, "ret", "")
    else if b = 0xC2 then
      match rest with
      | low :: high :: _ => some (3, "ret", immediate (low.toNat + 256 * high.toNat))
      | _ => none
    else if b = 0x48 && is64 then
      match rest with
      | op :: modRm :: _ => pairOp? true 3 op modRm
      | _ => none
    else
      match rest with
      | modRm :: _ => pairOp? false 2 b modRm
      | [] => none

/-- The instructions of some bytes, at most `limit` of them. -/
def decodeAll (is64 : Bool) : Nat → UInt64 → List UInt8 → List Instruction
  | 0, _, _ => []
  | limit + 1, address, code =>
    match decodeOne is64 code with
    | none => []
    | some (size, mnemonic, operands) =>
      ⟨address, mnemonic, operands⟩ ::
        decodeAll is64 limit (address + UInt64.ofNat size) (code.drop size)

/-- The decoder. A limit of zero is no limit. -/
def decoder : Decoder := fun r =>
  .ok (decodeAll r.is64 (if r.limit = 0 then r.code.size else r.limit) r.address r.code.toList)

end DownloadTriage.X86
