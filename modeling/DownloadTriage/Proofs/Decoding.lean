import DownloadTriage.Report.Wire
import Mathlib.Data.List.Forall2
import Mathlib.Data.List.Nodup

/-!
# What records say

What a value of a document stands for, and what the fields of a record are, apart from the functions
that read them. A decoder `Reads` a relation if it gives a value exactly where the relation does, so
what it refuses is settled with what it takes.

* `Gives`: the fields of a record, by name in an object and by position in a list.
* `Must`, `May`, `OrNull`: what a field says that has to be there, that may be missing or null, and
  that has a value of its own then.
* `slots?_eq_some_iff`: `slots?` finds the fields that are given.
* `reads_sectionEntropy`, `reads_features`: records inside a response.
-/

namespace DownloadTriage.Json

/-- The decoder gives what the relation says, and nothing else. -/
def Reads {α : Type} (read : Decoder α) (P : Json → α → Prop) : Prop := ∀ v a, read v = some a ↔ P v a

/-! ## Values -/

/-- The one value that is written so. -/
def Exactly {α : Type} (write : α → Json) (v : Json) (a : α) : Prop := v = write a

theorem reads_string : Reads asString (Exactly str) := by
  intro v s
  cases v <;> simp [asString, Exactly]

theorem reads_bool : Reads asBool (Exactly bool) := by
  intro v b
  cases v <;> simp [asBool, Exactly]

theorem asInteger_eq_some_iff {low high i : Int} {v : Json} :
    asInteger low high v = some i ↔ v = num (.integer i) ∧ low ≤ i ∧ i ≤ high := by
  cases v with
  | num n =>
    cases n with
    | float x => simp [asInteger]
    | integer j =>
      rw [asInteger]
      split
      next h => simp only [Option.some.injEq, num.injEq, Number.integer.injEq]; grind
      next h => simp only [reduceCtorEq, false_iff, num.injEq, Number.integer.injEq]; grind
  | null | bool | str | arr | obj | unreadable => simp [asInteger]

theorem asNatBelow_eq_some_iff {bound n : Nat} {v : Json} :
    asNatBelow bound v = some n ↔ v = nat n ∧ n < bound := by
  unfold asNatBelow nat
  rw [Option.map_eq_some_iff]
  constructor
  · rintro ⟨i, h, rfl⟩
    obtain ⟨rfl, hlow, hhigh⟩ := asInteger_eq_some_iff.1 h
    exact ⟨by rw [Int.toNat_of_nonneg hlow], by omega⟩
  · rintro ⟨rfl, hn⟩
    exact ⟨n, asInteger_eq_some_iff.2 ⟨rfl, by omega, by omega⟩, Int.toNat_natCast n⟩

/-- A number as a double: one that is written as such, or the nearest one of an integer. -/
inductive IsReal : Json → Binary64 → Prop
  | float (x : Binary64) : IsReal (num (.float x)) x
  | integer (i : Int) : IsReal (num (.integer i)) (Binary64.ofNat (i < 0) i.natAbs)

theorem reads_float : Reads asFloat IsReal := by
  intro v x
  constructor
  · intro h
    match v, h with
    | num (.float _), rfl => exact .float x
    | num (.integer i), rfl => exact .integer i
  · rintro (x | i) <;> rfl

theorem mapM_eq_some_iff {α β : Type} {f : α → Option β} {as : List α} {bs : List β} :
    as.mapM f = some bs ↔ List.Forall₂ (fun a b => f a = some b) as bs := by
  induction as generalizing bs with
  | nil => simp [eq_comm]
  | cons a as ih =>
    rw [List.mapM_cons]
    simp only [Option.bind_eq_bind, Option.bind_eq_some_iff, Option.pure_def, Option.some.injEq, ih]
    constructor
    · rintro ⟨b, hb, bs, hbs, rfl⟩
      exact .cons hb hbs
    · rintro (_ | ⟨hb, hbs⟩)
      exact ⟨_, hb, _, hbs, rfl⟩

/-- A list, item by item. -/
def IsList {α : Type} (P : Json → α → Prop) (v : Json) (as : List α) : Prop :=
  ∃ vs, v = arr vs ∧ List.Forall₂ P vs as

variable {α : Type} {read : Decoder α} {P : Json → α → Prop}

theorem Reads.list (h : Reads read P) : Reads (asList read) (IsList P) := by
  have hP : (fun v a => read v = some a) = P := funext₂ fun v a => propext (h v a)
  intro v as
  cases v with
  | arr vs => simp [asList, IsList, mapM_eq_some_iff, hP]
  | null | bool | num | str | obj | unreadable => simp [asList, IsList]

/-! ## Fields -/

/-- A field that has to be there. -/
def Must (P : Json → α → Prop) (slot : Option Json) (a : α) : Prop := ∃ v, slot = some v ∧ P v a

/-- A field that may be missing or null. -/
inductive May (P : Json → α → Prop) : Option Json → Option α → Prop
  | missing : May P none none
  | null : May P (some .null) none
  | given {v : Json} {a : α} (hv : v ≠ .null) (h : P v a) : May P (some v) (some a)

/-- A field with a value of its own where it is missing or null. -/
def OrNull (missing : α) (P : Json → α → Prop) (slot : Option Json) (a : α) : Prop :=
  ∃ o, May P slot o ∧ a = o.getD missing

theorem Reads.must (h : Reads read P) {slot : Option Json} {a : α} :
    required read slot = some a ↔ Must P slot a := by
  simp only [required, Option.bind_eq_some_iff, Must, h _ _]

theorem Reads.may (h : Reads read P) {slot : Option Json} {o : Option α} :
    optional read slot = some o ↔ May P slot o := by
  cases slot with
  | none =>
    rw [optional, Option.some.injEq]
    exact ⟨by rintro rfl; exact .missing, by rintro ⟨⟩; rfl⟩
  | some v =>
    by_cases hv : v = .null
    · subst hv
      rw [optional, asOption, Option.some.injEq]
      exact ⟨by rintro rfl; exact .null, by rintro (_ | _ | ⟨hv, -⟩); exacts [rfl, absurd rfl hv]⟩
    · have hread : optional read (some v) = (read v).map some := by
        cases v <;> first | rfl | exact absurd rfl hv
      rw [hread, Option.map_eq_some_iff]
      constructor
      · rintro ⟨a, ha, rfl⟩
        exact .given hv ((h v a).1 ha)
      · rintro (_ | _ | ⟨-, ha⟩)
        · exact absurd rfl hv
        · exact ⟨_, (h v _).2 ha, rfl⟩

theorem Reads.orNull (h : Reads read P) {missing : α} {slot : Option Json} {a : α} :
    Json.orNull missing read slot = some a ↔ OrNull missing P slot a := by
  simp only [Json.orNull, Option.map_eq_some_iff, OrNull, h.may, eq_comm (a := a)]

/-! ## Records -/

/-- **The fields of a record as a value gives them**: an object by their names, none of them twice and
with any other members beside them, or a list by their positions, the last ones left out where it
is shorter. -/
inductive Gives (names : List String) : Json → (String → Option Json) → Prop
  | object {ms : List (String × Json)} {field : String → Option Json}
      (h : ∀ n ∈ names, ms.filter (·.1 == n) = ((field n).map (n, ·)).toList) :
      Gives names (obj ms) field
  | list {vs : List Json} {field : String → Option Json} (hl : vs.length ≤ names.length)
      (h : ∀ (i : Nat) (n : String), names[i]? = some n → field n = vs[i]?) :
      Gives names (arr vs) field

theorem slot?_eq_some_iff {ms : List (String × Json)} {name : String} {slot : Option Json} :
    slot? ms name = some slot ↔ ms.filter (·.1 == name) = (slot.map (name, ·)).toList := by
  have hname : ∀ m ∈ ms.filter (·.1 == name), m.1 = name := fun m hm =>
    beq_iff_eq.1 (List.mem_filter.1 hm).2
  unfold slot?
  generalize ms.filter (·.1 == name) = found at hname ⊢
  match found, hname with
  | [], _ => cases slot <;> simp
  | [(n, v)], hname =>
    obtain rfl : n = name := hname (n, v) (List.mem_singleton_self _)
    cases slot <;> simp
  | _ :: _ :: _, _ => cases slot <;> simp

theorem mapM_eq_some_map_iff {β : Type} [Inhabited β] {names : List String} {f : String → Option β}
    {bs : List β} : names.mapM f = some bs ↔
      ∃ g : String → β, (∀ n ∈ names, f n = some (g n)) ∧ bs = names.map g := by
  rw [mapM_eq_some_iff]
  constructor
  · intro h
    refine ⟨fun n => (f n).getD default, ?_⟩
    induction h with
    | nil => simp
    | cons hb _ ih =>
      obtain ⟨hall, rfl⟩ := ih
      refine ⟨List.forall_mem_cons.2 ⟨?_, hall⟩, ?_⟩
      · simp [hb]
      · simp [hb]
  · rintro ⟨g, hg, rfl⟩
    exact List.forall₂_map_right_iff.2 (List.forall₂_same.2 hg)

/-- By position, the fields of different names are what stands there. -/
theorem map_field_of_positions {names : List String} {vs : List Json} {field : String → Option Json}
    (hl : vs.length ≤ names.length) (h : ∀ (i : Nat) (n : String), names[i]? = some n → field n = vs[i]?) :
    vs.map some ++ List.replicate (names.length - vs.length) none = names.map field := by
  refine List.ext_getElem? fun i => ?_
  rw [List.getElem?_map]
  cases hn : names[i]? with
  | none =>
    have hi := List.getElem?_eq_none_iff.1 hn
    rw [Option.map_none, List.getElem?_eq_none_iff]
    simp
    omega
  | some n =>
    obtain ⟨hi, -⟩ := List.getElem?_eq_some_iff.1 hn
    rw [Option.map_some, h i n hn]
    by_cases hv : i < vs.length
    · simp [List.getElem?_append_left, hv]
    · rw [List.getElem?_append_right (by simpa using hv), List.getElem?_replicate, if_pos, eq_comm,
        List.getElem?_eq_none_iff.2 (Nat.le_of_not_lt hv)]
      simp
      omega

theorem slots?_eq_some_iff {names : List String} (hn : names.Nodup) {v : Json}
    {slots : List (Option Json)} : slots? names v = some slots ↔
      ∃ field, Gives names v field ∧ slots = names.map field := by
  cases v with
  | obj ms =>
    have hslots : slots? names (obj ms) = names.mapM (slot? ms) := rfl
    simp only [hslots, mapM_eq_some_map_iff, slot?_eq_some_iff]
    refine exists_congr fun field => and_congr_left fun _ => ?_
    exact ⟨.object, fun h => by cases h; assumption⟩
  | arr vs =>
    rw [slots?]
    constructor
    · intro h
      split at h
      case isFalse => cases h
      rename_i hl
      have hfield (i : Nat) (n : String) (hi : names[i]? = some n) : vs[names.idxOf n]? = vs[i]? := by
        obtain ⟨hlt, rfl⟩ := List.getElem?_eq_some_iff.1 hi
        rw [hn.idxOf_getElem i hlt]
      obtain rfl := Option.some.inj h
      exact ⟨fun n => vs[names.idxOf n]?, .list hl hfield, map_field_of_positions hl hfield⟩
    · rintro ⟨field, hgives, rfl⟩
      cases hgives with
      | list hl h => rw [if_pos hl, map_field_of_positions hl h]
  | null | bool | num | str | unreadable =>
    exact ⟨nofun, by rintro ⟨_, ⟨⟩, _⟩⟩

/-- A record is read as its fields are. -/
theorem reads_record {names : List String} (hn : names.Nodup) {build : List (Option Json) → Option α}
    {Q : (String → Option Json) → α → Prop}
    (h : ∀ field a, build (names.map field) = some a ↔ Q field a) :
    Reads (fun v => (slots? names v).bind build) (fun v a => ∃ field, Gives names v field ∧ Q field a) := by
  intro v a
  rw [Option.bind_eq_some_iff]
  constructor
  · rintro ⟨slots, hslots, ha⟩
    obtain ⟨field, hgives, rfl⟩ := (slots?_eq_some_iff hn).1 hslots
    exact ⟨field, hgives, (h field a).1 ha⟩
  · rintro ⟨field, hgives, hq⟩
    exact ⟨_, (slots?_eq_some_iff hn).2 ⟨field, hgives, rfl⟩, (h field a).2 hq⟩

end DownloadTriage.Json

namespace DownloadTriage.Wire

open Json

/-! ## Words -/

theorem reads_uInt32 : Reads asUInt32 (Exactly fun n => nat n.toNat) := by
  intro v n
  unfold asUInt32 Exactly
  simp only [Option.map_eq_some_iff, asNatBelow_eq_some_iff]
  constructor
  · rintro ⟨k, ⟨rfl, hk⟩, rfl⟩
    rw [UInt32.toNat_ofNat_of_lt' hk]
  · rintro rfl
    exact ⟨n.toNat, ⟨rfl, n.toNat_lt⟩, UInt32.ofNat_toNat⟩

theorem reads_uInt64 : Reads asUInt64 (Exactly fun n => nat n.toNat) := by
  intro v n
  unfold asUInt64 Exactly
  simp only [Option.map_eq_some_iff, asNatBelow_eq_some_iff]
  constructor
  · rintro ⟨k, ⟨rfl, hk⟩, rfl⟩
    rw [UInt64.toNat_ofNat_of_lt' hk]
  · rintro rfl
    exact ⟨n.toNat, ⟨rfl, n.toNat_lt⟩, UInt64.ofNat_toNat⟩

theorem reads_int64 : Reads asInt64 (Exactly ofInt64) := by
  intro v i
  unfold asInt64 Exactly ofInt64
  simp only [Option.map_eq_some_iff, asInteger_eq_some_iff]
  constructor
  · rintro ⟨k, ⟨rfl, hlow, hhigh⟩, rfl⟩
    rw [Int64.toInt_ofInt_of_le hlow (Int.lt_of_le_of_lt hhigh (by decide))]
  · rintro rfl
    exact ⟨i.toInt, ⟨rfl, i.minValue_le_toInt, i.toInt_le⟩, Int64.ofInt_toInt i⟩

/-! ## Records of a response -/

/-- The entropy of a section, as a value says it. -/
def IsSectionEntropy (v : Json) (x : SectionEntropy) : Prop :=
  ∃ field, Gives sectionEntropyNames v field ∧
    Must (Exactly str) (field "name") x.name ∧
    Must IsReal (field "entropy") x.entropy ∧
    May (Exactly fun n => nat n.toNat) (field "size") x.size

theorem reads_sectionEntropy : Reads asSectionEntropy IsSectionEntropy := by
  refine reads_record (by decide) fun field x => ?_
  simp only [← reads_string.must, ← reads_float.must, ← reads_uInt64.may]
  constructor
  · intro h
    obtain ⟨_, hname, h⟩ := Option.bind_eq_some_iff.1 h
    obtain ⟨_, hentropy, h⟩ := Option.bind_eq_some_iff.1 h
    obtain ⟨_, hsize, h⟩ := Option.bind_eq_some_iff.1 h
    obtain rfl := Option.some.inj h
    exact ⟨hname, hentropy, hsize⟩
  · rintro ⟨hname, hentropy, hsize⟩
    simp only [sectionEntropyNames, List.map_cons, List.map_nil, hname, hentropy, hsize,
      Option.bind_eq_bind, Option.bind_some]

/-- Image features, as a value says them: what is missing or null is zero. -/
def IsFeatures (v : Json) (x : ImageFeatures) : Prop :=
  ∃ field, Gives featuresNames v field ∧
    OrNull 0 (Exactly fun n => nat n.toNat) (field "file_size") x.fileSize ∧
    OrNull 0 IsReal (field "entropy_total") x.entropy ∧
    OrNull 0 (Exactly fun n => nat n.toNat) (field "number_of_sections") x.sections ∧
    OrNull 0 (Exactly fun n => nat n.toNat) (field "total_dlls") x.libraries ∧
    OrNull 0 (Exactly fun n => nat n.toNat) (field "total_resources") x.resources ∧
    OrNull false (Exactly bool) (field "is_packed") x.isPacked

theorem reads_features : Reads asFeatures IsFeatures := by
  refine reads_record (by decide) fun field x => ?_
  simp only [← reads_uInt64.orNull, ← reads_float.orNull, ← reads_uInt32.orNull, ← reads_bool.orNull]
  constructor
  · intro h
    -- each field that is read is one bind
    iterate 6 obtain ⟨_, _, h⟩ := Option.bind_eq_some_iff.1 h
    obtain rfl := Option.some.inj h
    refine ⟨?_, ?_, ?_, ?_, ?_, ?_⟩
    all_goals assumption
  · rintro ⟨hsize, hentropy, hsections, hlibraries, hresources, hpacked⟩
    simp only [featuresNames, List.map_cons, List.map_nil, hsize, hentropy, hsections, hlibraries,
      hresources, hpacked, Option.bind_eq_bind, Option.bind_some]

end DownloadTriage.Wire
