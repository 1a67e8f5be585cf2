import DownloadTriage.Agent.Startup
import DownloadTriage.Proofs.Disassembly
import Mathlib.Data.Fintype.Basic
import Mathlib.Tactic.FinCases

/-!
# The code that a dry run shows

In a dry run the code at an entry point comes from the decoder of the project, which knows the
instructions of a function's frame (`Op`). Each of them has its bytes (`Op.encode`), written down apart
from the decoder, and the decoder knows these bytes and no others. What it lists for some code is then
what stands at its start, and what is shown of an image is cut out of that.

* `Op.decodeOne_encode`, `Op.decodeOne_eq_some`: one instruction, from its bytes and back.
* `listing_prefix_decodeAll`, `exists_decodeAll`: all that stands at the start of some code is listed,
  and nothing else.
* `Pe.snippet_frame`: the code of an image is the frame at its entry point.
* `Pipeline.code_alone`: so it is for a file that a dry run scans.
-/

namespace DownloadTriage.X86

/-! ## Instructions and their bytes -/

/-- An instruction of a function's frame. Registers are their numbers. -/
inductive Op where
  | push (r : Fin 8)
  | pop (r : Fin 8)
  | nop
  | int3
  | leave
  | hlt
  | ret
  /-- A return that drops so many bytes of arguments. -/
  | retDropping (n : UInt16)
  /-- A move between registers of 64 bits or of 32. -/
  | mov (wide : Bool) (target source : Fin 8)
  | xor (wide : Bool) (target source : Fin 8)
  deriving DecidableEq, Repr

namespace Op

/-- The byte that names two registers. -/
def modRm (target source : Fin 8) : UInt8 := UInt8.ofNat (0xC0 + 8 * source + target)

/-- The byte in front of an instruction on 64-bit registers. -/
def widening (wide : Bool) : List UInt8 := if wide then [0x48] else []

/-- The bytes of an instruction. -/
def encode : Op → List UInt8
  | push r => [UInt8.ofNat (0x50 + r)]
  | pop r => [UInt8.ofNat (0x58 + r)]
  | nop => [0x90]
  | int3 => [0xCC]
  | leave => [0xC9]
  | hlt => [0xF4]
  | ret => [0xC3]
  | retDropping n => [0xC2, UInt8.ofNat (n.toNat % 256), UInt8.ofNat (n.toNat / 256)]
  | mov wide target source => widening wide ++ [0x89, modRm target source]
  | xor wide target source => widening wide ++ [0x31, modRm target source]

/-- The name of an instruction. -/
def mnemonic : Op → String
  | push _ => "push"
  | pop _ => "pop"
  | nop => "nop"
  | int3 => "int3"
  | leave => "leave"
  | hlt => "hlt"
  | ret => "ret"
  | retDropping _ => "ret"
  | mov .. => "mov"
  | xor .. => "xor"

/-- What an instruction works on, where pushes and pops take the registers of the mode. -/
def operands (is64 : Bool) : Op → String
  | push r => register is64 r
  | pop r => register is64 r
  | retDropping n => immediate n.toNat
  | mov wide target source => register wide target ++ ", " ++ register wide source
  | xor wide target source => register wide target ++ ", " ++ register wide source
  | _ => ""

/-- Whether an instruction is one of the mode: 32-bit code has no registers of 64 bits. -/
def Fits (is64 : Bool) : Op → Prop
  | mov wide .. => wide = true → is64 = true
  | xor wide .. => wide = true → is64 = true
  | _ => True

variable {is64 : Bool} {op : Op} {rest : List UInt8}

theorem registerPair_modRm (wide : Bool) (mnemonic : String) (size : Nat) (target source : Fin 8) :
    registerPair wide mnemonic size (modRm target source) =
      some (size, mnemonic, register wide target ++ ", " ++ register wide source) := by
  have htarget := target.isLt
  have hsource := source.isLt
  have hbyte : (modRm target source).toNat = 0xC0 + 8 * source + target := by
    rw [modRm, UInt8.toNat_ofNat']
    omega
  have hpair : ¬ modRm target source < 0xC0 := by
    rw [UInt8.lt_iff_toNat_lt, hbyte]
    simp; omega
  rw [registerPair, if_neg hpair, hbyte]
  have h1 : (0xC0 + 8 * (source : Nat) + target) % 8 = target := by omega
  have h2 : (0xC0 + 8 * (source : Nat) + target) / 8 % 8 = source := by omega
  simp only [h1, h2]

/-- **The decoder knows the bytes of every instruction**, whatever comes after them. -/
theorem decodeOne_encode (h : op.Fits is64) : decodeOne is64 (op.encode ++ rest) =
    some (op.encode.length, op.mnemonic, op.operands is64) := by
  cases op with
  | push r => fin_cases r <;> rfl
  | pop r => fin_cases r <;> rfl
  | nop | int3 | leave | hlt | ret => rfl
  | retDropping n =>
    have hn := n.toNat_lt
    have hlow : (UInt8.ofNat (n.toNat % 256)).toNat = n.toNat % 256 := by
      rw [UInt8.toNat_ofNat']; omega
    have hhigh : (UInt8.ofNat (n.toNat / 256)).toNat = n.toNat / 256 := by
      rw [UInt8.toNat_ofNat']; omega
    show some (3, "ret", immediate (_ + 256 * _)) = _
    rw [hlow, hhigh, Nat.mod_add_div]
    rfl
  | mov wide target source =>
    cases wide with
    | false => exact registerPair_modRm false "mov" 2 target source
    | true =>
      obtain rfl : is64 = true := h rfl
      exact registerPair_modRm true "mov" 3 target source
  | xor wide target source =>
    cases wide with
    | false => exact registerPair_modRm false "xor" 2 target source
    | true =>
      obtain rfl : is64 = true := h rfl
      exact registerPair_modRm true "xor" 3 target source

/-- Eight bytes in a row are one for each register. -/
theorem register_of_range {low high b : UInt8} (hlow : low ≤ b) (hhigh : b ≤ high)
    (h : high.toNat = low.toNat + 7) :
    ∃ r : Fin 8, b.toNat - low.toNat = r ∧ [b] = [UInt8.ofNat (low.toNat + r)] := by
  rw [UInt8.le_iff_toNat_le] at hlow hhigh
  refine ⟨⟨b.toNat - low.toNat, by omega⟩, rfl, ?_⟩
  rw [Nat.add_sub_cancel' hlow, UInt8.ofNat_toNat]

theorem exists_modRm {m : UInt8} (h : ¬ m < 0xC0) :
    ∃ target source : Fin 8, m = modRm target source := by
  have hm := m.toNat_lt
  rw [UInt8.lt_iff_toNat_lt] at h
  simp only [UInt8.reduceToNat] at h
  refine ⟨⟨m.toNat % 8, Nat.mod_lt _ (by decide)⟩, ⟨m.toNat / 8 % 8, Nat.mod_lt _ (by decide)⟩, ?_⟩
  rw [modRm]
  have hsum : 0xC0 + 8 * (m.toNat / 8 % 8) + m.toNat % 8 = m.toNat := by omega
  simp only [hsum, UInt8.ofNat_toNat]

theorem pairOp?_eq_some {wide : Bool} {size : Nat} {b m : UInt8} {x : Nat × String × String}
    (h : pairOp? wide size b m = some x) : ∃ op : Op, ((wide = true → is64 = true) → op.Fits is64) ∧
      widening wide ++ [b, m] = op.encode ∧ x = (size, op.mnemonic, op.operands is64) := by
  have hpair {name : String} (h : registerPair wide name size m = some x) :
      ∃ target source : Fin 8, m = modRm target source := by
    unfold registerPair at h
    split at h
    · cases h
    · next hm => exact exists_modRm hm
  unfold pairOp? at h
  split at h
  next hb =>
    obtain ⟨target, source, rfl⟩ := hpair h
    rw [registerPair_modRm] at h
    exact ⟨xor wide target source, id, by rw [hb]; rfl, (Option.some.inj h).symm⟩
  split at h
  next hb =>
    obtain ⟨target, source, rfl⟩ := hpair h
    rw [registerPair_modRm] at h
    exact ⟨mov wide target source, id, by rw [hb]; rfl, (Option.some.inj h).symm⟩
  next => cases h

theorem exists_word (low high : UInt8) : ∃ n : UInt16, UInt8.ofNat (n.toNat % 256) = low ∧
    UInt8.ofNat (n.toNat / 256) = high ∧ n.toNat = low.toNat + 256 * high.toNat := by
  have hlow := low.toNat_lt
  have hhigh := high.toNat_lt
  have hn : (UInt16.ofNat (low.toNat + 256 * high.toNat)).toNat = low.toNat + 256 * high.toNat := by
    rw [UInt16.toNat_ofNat']
    omega
  refine ⟨_, ?_, ?_, hn⟩
  · rw [hn, Nat.add_mul_mod_self_left, Nat.mod_eq_of_lt hlow, UInt8.ofNat_toNat]
  · rw [hn, Nat.add_mul_div_left _ _ (by decide), Nat.div_eq_of_lt hlow, Nat.zero_add,
      UInt8.ofNat_toNat]

/-- **The decoder knows no other bytes.** -/
theorem decodeOne_eq_some {code : List UInt8} {x : Nat × String × String}
    (h : decodeOne is64 code = some x) : ∃ op rest, Op.Fits is64 op ∧ code = op.encode ++ rest ∧
      x = (op.encode.length, op.mnemonic, op.operands is64) := by
  cases code with
  | nil => cases h
  | cons b rest =>
    -- the instructions of one byte
    have hone (op : Op) (hb : [b] = op.encode) (hfit : op.Fits is64)
        (hx : some (1, op.mnemonic, op.operands is64) = some x) : ∃ op after, Op.Fits is64 op ∧
          b :: rest = op.encode ++ after ∧ x = (op.encode.length, op.mnemonic, op.operands is64) :=
      ⟨op, rest, hfit, by rw [← hb]; rfl, by rw [← hb]; exact (Option.some.inj hx).symm⟩
    rw [decodeOne.eq_def] at h
    dsimp only at h
    split at h
    next hr =>
      simp only [Bool.and_eq_true, decide_eq_true_eq] at hr
      obtain ⟨r, hr, hb⟩ := register_of_range hr.1 hr.2 (by decide)
      rw [show b.toNat - 0x50 = r from hr] at h
      exact hone (push r) hb trivial h
    split at h
    next hr =>
      simp only [Bool.and_eq_true, decide_eq_true_eq] at hr
      obtain ⟨r, hr, hb⟩ := register_of_range hr.1 hr.2 (by decide)
      rw [show b.toNat - 0x58 = r from hr] at h
      exact hone (pop r) hb trivial h
    split at h
    next hb => exact hone nop (by rw [hb]; rfl) trivial h
    split at h
    next hb => exact hone int3 (by rw [hb]; rfl) trivial h
    split at h
    next hb => exact hone leave (by rw [hb]; rfl) trivial h
    split at h
    next hb => exact hone hlt (by rw [hb]; rfl) trivial h
    split at h
    next hb => exact hone ret (by rw [hb]; rfl) trivial h
    split at h
    next hb =>
      split at h
      next low high after =>
        obtain ⟨n, hlow, hhigh, hn⟩ := exists_word low high
        rw [← hn] at h
        exact ⟨retDropping n, after, trivial, by rw [encode, hlow, hhigh, hb]; rfl,
          (Option.some.inj h).symm⟩
      next => cases h
    split at h
    next hb =>
      simp only [Bool.and_eq_true, decide_eq_true_eq] at hb
      split at h
      next code modRm after =>
        obtain ⟨op, hfit, hcode, hx⟩ := pairOp?_eq_some h
        exact ⟨op, after, hfit fun _ => hb.2, by rw [← hcode, hb.1]; rfl, by rw [← hcode]; exact hx⟩
      next => cases h
    split at h
    next modRm after =>
      obtain ⟨op, hfit, hcode, hx⟩ := pairOp?_eq_some h
      exact ⟨op, after, hfit nofun, by rw [← hcode]; rfl, by rw [← hcode]; exact hx⟩
    next => cases h

end Op

/-! ## Lists of instructions -/

variable {is64 : Bool} {ops : List Op} {code : List UInt8} {n : Nat} {a : UInt64}

/-- Instructions that stand one behind the other, the first at an address. -/
def listing (is64 : Bool) : UInt64 → List Op → List Instruction
  | _, [] => []
  | a, op :: ops => ⟨a, op.mnemonic, op.operands is64⟩ ::
      listing is64 (a + UInt64.ofNat op.encode.length) ops

/-- Instructions of a mode whose bytes are the first of some code. -/
structure Stands (is64 : Bool) (ops : List Op) (code : List UInt8) : Prop where
  fits : ∀ op ∈ ops, op.Fits is64
  initial : ops.flatMap Op.encode <+: code

theorem length_listing (is64 : Bool) (a : UInt64) (ops : List Op) :
    (listing is64 a ops).length = ops.length := by
  induction ops generalizing a with
  | nil => rfl
  | cons op ops ih => rw [listing, List.length_cons, ih, List.length_cons]

/-- The beginning of a listing lists a beginning. -/
theorem exists_of_prefix_listing {shown : List Instruction} (h : shown <+: listing is64 a ops) :
    ∃ front, front <+: ops ∧ shown = listing is64 a front := by
  induction ops generalizing a shown with
  | nil => exact ⟨[], List.prefix_rfl, List.prefix_nil.1 h⟩
  | cons op ops ih =>
    rcases List.prefix_cons_iff.1 h with rfl | ⟨rest, rfl, hrest⟩
    · exact ⟨[], List.nil_prefix, rfl⟩
    · obtain ⟨front, hfront, rfl⟩ := ih hrest
      exact ⟨op :: front, List.cons_prefix_cons.2 ⟨rfl, hfront⟩, rfl⟩

theorem Stands.of_prefix {front : List Op} (h : Stands is64 ops code) (hf : front <+: ops) :
    Stands is64 front code := by
  obtain ⟨rest, rfl⟩ := hf
  refine ⟨fun op hop => h.fits op (List.mem_append_left _ hop), ?_⟩
  refine List.IsPrefix.trans ?_ h.initial
  rw [List.flatMap_append]
  exact List.prefix_append ..

theorem stands_cons_iff {op : Op} : Stands is64 (op :: ops) code ↔
    op.Fits is64 ∧ ∃ rest, code = op.encode ++ rest ∧ Stands is64 ops rest := by
  constructor
  · rintro ⟨hfits, rest, rfl⟩
    rw [List.flatMap_cons, List.append_assoc]
    exact ⟨hfits op List.mem_cons_self, _, rfl, fun o ho => hfits o (List.mem_cons_of_mem _ ho),
      List.prefix_append ..⟩
  · rintro ⟨hfit, rest, rfl, hfits, hinitial⟩
    refine ⟨List.forall_mem_cons.2 ⟨hfit, hfits⟩, ?_⟩
    rw [List.flatMap_cons]
    exact (List.prefix_append_right_inj _).2 hinitial

/-- Whatever stands at the start of some code is decoded. -/
theorem listing_prefix_decodeAll (h : Stands is64 ops code) (hn : ops.length ≤ n) :
    listing is64 a ops <+: decodeAll is64 n a code := by
  induction ops generalizing n a code with
  | nil => exact List.nil_prefix
  | cons op ops ih =>
    obtain ⟨hfit, rest, rfl, hrest⟩ := stands_cons_iff.1 h
    obtain ⟨n, rfl⟩ : ∃ m, n = m + 1 := ⟨n - 1, by simp at hn; omega⟩
    have hsize : (op.encode ++ rest).drop op.encode.length = rest := List.drop_left
    simp only [listing, decodeAll, Op.decodeOne_encode hfit, hsize]
    exact List.cons_prefix_cons.2 ⟨rfl, ih hrest (Nat.le_of_succ_le_succ hn)⟩

/-- Nothing else is decoded. -/
theorem exists_decodeAll (is64 : Bool) (n : Nat) (a : UInt64) (code : List UInt8) :
    ∃ ops, Stands is64 ops code ∧ ops.length ≤ n ∧
      decodeAll is64 n a code = listing is64 a ops := by
  induction n generalizing a code with
  | zero => exact ⟨[], ⟨nofun, List.nil_prefix⟩, Nat.le_refl 0, rfl⟩
  | succ n ih =>
    cases hfirst : decodeOne is64 code with
    | none =>
      exact ⟨[], ⟨nofun, List.nil_prefix⟩, Nat.zero_le _, by simp only [decodeAll, hfirst]; rfl⟩
    | some x =>
      obtain ⟨op, rest, hfit, rfl, rfl⟩ := Op.decodeOne_eq_some hfirst
      obtain ⟨ops, hops, hlength, hall⟩ := ih (a + UInt64.ofNat op.encode.length) rest
      refine ⟨op :: ops, stands_cons_iff.2 ⟨hfit, rest, rfl, hops⟩, Nat.succ_le_succ hlength, ?_⟩
      have hsize : (op.encode ++ rest).drop op.encode.length = rest := List.drop_left
      simp only [listing, decodeAll, hfirst, hsize, hall]

/-- **The frame at the start of some code**: instructions that stand there, at most `n`, of which
none returns but the last, and as many as there are. -/
structure Frame (is64 : Bool) (n : Nat) (a : UInt64) (code : List UInt8) (ops : List Op) : Prop where
  stands : Stands is64 ops code
  excerpt : Pe.Excerpt n (listing is64 a ops) (listing is64 a ops)
  longest : ∀ others, Stands is64 others code →
    Pe.Excerpt n (listing is64 a others) (listing is64 a others) →
    listing is64 a others <+: listing is64 a ops

/-- The instructions up to a return, out of all that are decoded, are a frame. -/
theorem exists_frame (is64 : Bool) (n : Nat) (a : UInt64) (code : List UInt8) :
    ∃ ops, Frame is64 n a code ops ∧
      Pe.upToReturn n (decodeAll is64 n a code) = listing is64 a ops := by
  have hshown := Pe.upToReturn_longest n (decodeAll is64 n a code)
  obtain ⟨all, hstands, -, hall⟩ := exists_decodeAll is64 n a code
  obtain ⟨ops, hops, heq⟩ := exists_of_prefix_listing (hall ▸ hshown.initial)
  rw [← hall] at heq
  refine ⟨ops, ⟨hstands.of_prefix hops, ?_, fun others hothers hexcerpt => ?_⟩, heq⟩
  · rw [← heq]
    exact ⟨List.prefix_rfl, hshown.short, hshown.goesOn⟩
  · have hlength : others.length ≤ n := by
      rw [← length_listing is64 a]
      exact hexcerpt.short
    rw [← heq]
    exact hshown.longest _
      ⟨listing_prefix_decodeAll hothers hlength, hexcerpt.short, hexcerpt.goesOn⟩

end DownloadTriage.X86

namespace DownloadTriage

open X86

namespace Pe

/-- The bytes of an image that are decoded, from an offset on. -/
def window (b : Array UInt8) (o : Nat) : List UInt8 :=
  (b.extract o (min b.size (o + windowSize))).toList

/-- **The code of an image is the frame at its entry point.** -/
theorem snippet_frame {b : Array UInt8} {h : Headers} {o : Nat} (hh : parseHeaders b = .ok h)
    (ho : offsetOfRva h.entryRva h.sections = some o) (hb : o < b.size) :
    ∃ s ops, snippet decoder b = .ok s ∧
      Frame h.is64 maxInstructions h.entryRva.toUInt64 (window b o) ops ∧
      s.lines = (listing h.is64 h.entryRva.toUInt64 ops).map CodeLine.ofInstruction := by
  obtain ⟨ops, hframe, heq⟩ :=
    exists_frame h.is64 maxInstructions h.entryRva.toUInt64 (window b o)
  have hquery : snippetQuery b = .ok (h, ⟨b.extract o (min b.size (o + windowSize)),
      h.entryRva.toUInt64, h.is64, maxInstructions⟩) := by
    simp only [snippetQuery, hh, snippetRequest, ho, if_pos hb]
  refine ⟨_, ops, by rw [snippet, hquery]; rfl, hframe, ?_⟩
  rw [← heq]
  rfl

end Pe

/-- **The code of a file in a dry run is the frame at its entry point**, if its headers are read and map
the entry point into the file. -/
theorem Pipeline.code_alone {draws : Nat → Draw} {w : World} {p : Path} {b : Array UInt8}
    {h : Pe.Headers} {o : Nat} (hw : w.around = Rehearsal.alone draws)
    (hp : w.files.read p = .ok b) (hh : Pe.parseHeaders b = .ok h)
    (ho : Pe.offsetOfRva h.entryRva h.sections = some o) (hb : o < b.size) :
    ∃ s ops, ((Pipeline.code p).eval w).1 = some s ∧
      Frame h.is64 Pe.maxInstructions h.entryRva.toUInt64 (Pe.window b o) ops ∧
      s.lines = (listing h.is64 h.entryRva.toUInt64 ops).map CodeLine.ofInstruction := by
  obtain ⟨s, ops, hs, hframe, hlines⟩ := Pe.snippet_frame hh ho hb
  refine ⟨s, ops, ?_, hframe, hlines⟩
  have hdecoder : w.around.decoder = decoder := by rw [hw]; rfl
  rw [Pipeline.code_eval hp, Pe.disassemble_eval, hdecoder, hs]

end DownloadTriage
