/-!
# Instruction decoders

A decoder turns bytes at a base address into instructions. It may fail, and it may return more than
it was asked for.
-/

namespace DownloadTriage

/-- A decoded instruction. -/
structure Instruction where
  address : UInt64
  mnemonic : String
  operands : String
  deriving DecidableEq, Repr

/-- Why a decoder gives nothing. -/
inductive DecodeError where
  | initialization (reason : String)
  | decoding (reason : String)
  deriving DecidableEq, Repr

/-- What is said of a failure. -/
def DecodeError.message : DecodeError → String
  | initialization r => "Decoder initialization failed: " ++ r
  | decoding r => "Decoding failed: " ++ r

/-- What a decoder is asked: bytes, the address of the first, the mode, and how many instructions
are wanted at most. -/
structure DecodeRequest where
  code : Array UInt8
  address : UInt64
  is64 : Bool
  limit : Nat
  deriving DecidableEq, Repr

/-- A decoder. -/
abbrev Decoder := DecodeRequest → Except DecodeError (List Instruction)

/-- A line of a decoder's script; without an address it stands where it comes. -/
structure ScriptedInstruction where
  mnemonic : String
  operands : String
  address : Option Nat
  deriving DecidableEq, Repr

/-- A decoder that gives the same instructions whatever it is asked, limit and bytes included. -/
def Decoder.scripted (lines : List ScriptedInstruction) : Decoder := fun r =>
  .ok (lines.mapIdx fun i l =>
    ⟨UInt64.ofNat (l.address.getD (r.address.toNat + i)), l.mnemonic, l.operands⟩)

end DownloadTriage
