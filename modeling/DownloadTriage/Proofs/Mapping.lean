import DownloadTriage.Pe.Mapping
import DownloadTriage.Proofs.Walk

/-!
# Which section maps an address

A section maps an address if it spans it and gives it an offset of 32 bits. Sections may overlap, be
empty and stand in any order, so the first section that spans an address need not be the first that
maps it: one whose offset is too large is passed over. `offsetByFirst` is the rule that never looks
behind the first section that spans the address.

* `offsetOfRva_eq_find?`: the offset is the one that the first section which maps the address gives.
* `walkOffset_eq`: no sum or difference of the search traps.
* `offsetOfRva_eq_offsetByFirst_iff`: where the search and the rule part.
* `offsetOfRva_decides`: the search over every list of sections.
-/

namespace DownloadTriage.Pe

variable {rva : UInt32} {s : Section} {ss : List Section} {o : Nat}

/-- The section spans the address and gives it an offset of 32 bits. -/
def Section.Maps (s : Section) (rva : UInt32) : Prop :=
  s.Spans rva ∧ s.offset rva < UInt32.size

instance (s : Section) (rva : UInt32) : Decidable (s.Maps rva) :=
  inferInstanceAs (Decidable (_ ∧ _))

/-- The first section that spans the address. -/
def firstSpanning? (rva : UInt32) (ss : List Section) : Option Section :=
  ss.find? fun s => s.Spans rva

/-- The offset that the first section which spans the address gives it, if it has 32 bits. -/
def offsetByFirst (rva : UInt32) (ss : List Section) : Option Nat :=
  (firstSpanning? rva ss).bind fun s => if s.Maps rva then some (s.offset rva) else none

/-! ## The search -/

/-- One section of the search: it ends here, or goes on behind. -/
theorem offsetOfRva_cons (rva : UInt32) (s : Section) (ss : List Section) :
    offsetOfRva rva (s :: ss) =
      if s.Maps rva then some (s.offset rva) else offsetOfRva rva ss := by
  rw [offsetOfRva, List.findSome?_cons, ← offsetOfRva]
  by_cases hspans : s.Spans rva
  · by_cases hfits : s.offset rva < UInt32.size
    · rw [if_pos hspans, if_pos hfits, if_pos ⟨hspans, hfits⟩]
    · rw [if_pos hspans, if_neg hfits, if_neg fun h => hfits h.2]
  · rw [if_neg hspans, if_neg fun h => hspans h.1]

/-- **The first section that maps the address** gives the offset. -/
theorem offsetOfRva_eq_find? (rva : UInt32) (ss : List Section) :
    offsetOfRva rva ss = (ss.find? fun s => s.Maps rva).map (·.offset rva) := by
  induction ss with
  | nil => rfl
  | cons s ss ih =>
    rw [offsetOfRva_cons, List.find?_cons]
    by_cases h : s.Maps rva
    · rw [if_pos h, decide_eq_true h]
      rfl
    · rw [if_neg h, decide_eq_false h, ih]

theorem offsetOfRva_eq_some_iff :
    offsetOfRva rva ss = some o ↔ ∃ front s behind, ss = front ++ s :: behind ∧
      (∀ s' ∈ front, ¬ s'.Maps rva) ∧ s.Maps rva ∧ o = s.offset rva := by
  rw [offsetOfRva_eq_find?, Option.map_eq_some_iff]
  constructor
  · rintro ⟨s, hfind, rfl⟩
    obtain ⟨hmaps, front, behind, rfl, hfront⟩ := List.find?_eq_some_iff_append.1 hfind
    exact ⟨front, s, behind, rfl, fun s' hs' => by simpa using hfront s' hs',
      of_decide_eq_true hmaps, rfl⟩
  · rintro ⟨front, s, behind, rfl, hfront, hmaps, rfl⟩
    refine ⟨s, List.find?_eq_some_iff_append.2 ⟨decide_eq_true hmaps, front, behind, rfl, ?_⟩, rfl⟩
    exact fun s' hs' => by simpa using hfront s' hs'

theorem offsetOfRva_eq_none_iff : offsetOfRva rva ss = none ↔ ∀ s ∈ ss, ¬ s.Maps rva := by
  rw [offsetOfRva_eq_find?, Option.map_eq_none_iff, List.find?_eq_none]
  simp only [decide_eq_true_eq]

theorem offsetOfRva_lt (h : offsetOfRva rva ss = some o) : o < 2 ^ 32 := by
  obtain ⟨-, s, -, -, -, hmaps, rfl⟩ := offsetOfRva_eq_some_iff.1 h
  exact hmaps.2

/-! ## The search in machine operations -/

/-- What one section gives, in machine operations. -/
def Section.walkOffset {ε : Type} (s : Section) (rva : UInt32) : Except (Halt ε) (Option Nat) :=
  if s.virtualAddress.toNat ≤ rva.toNat then do
    let stop ← Halt.add s.virtualAddress.toNat s.span
    if rva.toNat < stop then do
      let o ← Halt.add s.pointerToRawData.toNat (← Halt.sub rva.toNat s.virtualAddress.toNat)
      pure (if o < UInt32.size then some o else none)
    else pure none
  else pure none

/-- The search in machine operations. -/
def walkOffset {ε : Type} (rva : UInt32) : List Section → Except (Halt ε) (Option Nat)
  | [] => pure none
  | s :: ss => do
    match ← s.walkOffset rva with
    | some o => pure (some o)
    | none => walkOffset rva ss

theorem Section.walkOffset_eq {ε : Type} (s : Section) (rva : UInt32) :
    (s.walkOffset rva : Except (Halt ε) (Option Nat)) =
      .ok (if s.Maps rva then some (s.offset rva) else none) := by
  have hva := s.virtualAddress.toNat_lt
  have hptr := s.pointerToRawData.toNat_lt
  have hrva := rva.toNat_lt
  have hspan : s.span < 2 ^ 32 := max_lt s.virtualSize.toNat_lt s.sizeOfRawData.toNat_lt
  rw [Section.walkOffset]
  by_cases hstart : s.virtualAddress.toNat ≤ rva.toNat
  · rw [if_pos hstart, Halt.add_eq (by omega), Halt.ok_bind]
    by_cases hstop : rva.toNat < s.virtualAddress.toNat + s.span
    · rw [if_pos hstop, Halt.sub_eq hstart, Halt.ok_bind, Halt.add_eq (by omega), Halt.ok_bind]
      have hmaps : s.Maps rva ↔ s.offset rva < UInt32.size := and_iff_right ⟨hstart, hstop⟩
      simp only [hmaps]
      rfl
    · rw [if_neg hstop, if_neg fun h : s.Maps rva => hstop h.1.2]
      rfl
  · rw [if_neg hstart, if_neg fun h : s.Maps rva => hstart h.1.1]
    rfl

/-- **The search never traps**: its sums and differences are words of 64 bits. -/
theorem walkOffset_eq {ε : Type} (rva : UInt32) (ss : List Section) :
    (walkOffset rva ss : Except (Halt ε) (Option Nat)) = .ok (offsetOfRva rva ss) := by
  induction ss with
  | nil => rfl
  | cons s ss ih =>
    rw [walkOffset, Section.walkOffset_eq, Halt.ok_bind, offsetOfRva_cons]
    by_cases h : s.Maps rva
    · rw [if_pos h, if_pos h]
      rfl
    · rw [if_neg h, if_neg h]
      exact ih

/-! ## The first section that spans the address -/

/-- **Where the search and the rule part**: they agree unless the first section that spans the
address does not map it and another one does. -/
theorem offsetOfRva_eq_offsetByFirst_iff :
    offsetOfRva rva ss = offsetByFirst rva ss ↔
      ∀ s, firstSpanning? rva ss = some s → s.Maps rva ∨ ∀ s' ∈ ss, ¬ s'.Maps rva := by
  rw [offsetByFirst]
  cases hfirst : firstSpanning? rva ss with
  | none =>
    have hnone : offsetOfRva rva ss = none := offsetOfRva_eq_none_iff.2 fun s hs hmaps =>
      List.find?_eq_none.1 hfirst s hs (decide_eq_true hmaps.1)
    exact iff_of_true hnone fun s hs => nomatch hs
  | some s =>
    obtain ⟨-, front, behind, hsplit, hfront⟩ := List.find?_eq_some_iff_append.1 hfirst
    simp only [Option.bind_some, Option.some.injEq, forall_eq']
    by_cases hmaps : s.Maps rva
    · rw [if_pos hmaps]
      -- no section in front of `s` spans the address, so none maps it
      refine iff_of_true (offsetOfRva_eq_some_iff.2 ⟨front, s, behind, hsplit, ?_, hmaps, rfl⟩)
        (.inl hmaps)
      exact fun s' hs' h => absurd h.1 (by simpa using hfront s' hs')
    · rw [if_neg hmaps, offsetOfRva_eq_none_iff]
      exact (or_iff_right hmaps).symm

/-- **The search for an offset.** For every address and every list of sections: an offset is found
exactly if it is the one that the first section which maps the address gives, none is found exactly
if no section maps it, and no operation traps on the way. The rule of the first section that spans
the address is kept exactly if that section maps the address or no section does. -/
theorem offsetOfRva_decides (rva : UInt32) (ss : List Section) :
    (∀ o, offsetOfRva rva ss = some o ↔ ∃ front s behind, ss = front ++ s :: behind ∧
      (∀ s' ∈ front, ¬ s'.Maps rva) ∧ s.Maps rva ∧ o = s.offset rva) ∧
    (offsetOfRva rva ss = none ↔ ∀ s ∈ ss, ¬ s.Maps rva) ∧
    (walkOffset rva ss : Except (Halt Empty) (Option Nat)) = .ok (offsetOfRva rva ss) ∧
    (offsetOfRva rva ss = offsetByFirst rva ss ↔
      ∀ s, firstSpanning? rva ss = some s → s.Maps rva ∨ ∀ s' ∈ ss, ¬ s'.Maps rva) :=
  ⟨fun _ => offsetOfRva_eq_some_iff, offsetOfRva_eq_none_iff, walkOffset_eq rva ss,
    offsetOfRva_eq_offsetByFirst_iff⟩

/-- Two sections that span the same addresses, the first with an offset at the end of 32 bits. -/
def overlapping : List Section :=
  [⟨".text", 16, 4096, 0, 0xFFFFFFFF⟩, ⟨".data", 16, 4096, 0, 1024⟩]

/-- The first section that spans the address gives it no offset, and the search takes one from the
section behind it. -/
theorem offsetOfRva_overlapping :
    offsetByFirst 4097 overlapping = none ∧ offsetOfRva 4097 overlapping = some 1025 := by
  decide

end DownloadTriage.Pe
