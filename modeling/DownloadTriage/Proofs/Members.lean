import DownloadTriage.Json.Record
import Mathlib.Data.List.Nodup

/-!
# The order of members

The members of an object may come in any order: a writer keeps them as they were written, another one
sorts them by name. An `Arrangement` is such a choice, made at every depth of a document at once.
`slots?` finds the fields of a record by their names, so it finds the same fields in whatever way the
record's object was arranged, and also among foreign members.

* `Arrangement.asWritten`, `Arrangement.byName`: the two that occur.
* `slots?_arrange`: the fields of an arranged object, in the midst of foreign members.
* `optional_arrange`, `asList_arrange`: what is written for an absent value, and for a list, is read
  back exactly if each value is.
-/

namespace DownloadTriage.Json

/-! ## Fields among members -/

section Slot

variable {ms ns : List (String × Json)} {name : String}

/-- The order of members is free. -/
theorem slot?_perm (h : ns.Perm ms) : slot? ns name = slot? ms name := by
  have hf := h.filter fun m => m.1 == name
  unfold slot?
  generalize ns.filter (·.1 == name) = as at hf ⊢
  generalize ms.filter (·.1 == name) = bs at hf ⊢
  match bs, hf with
  | [], hf => rw [List.perm_nil.1 hf]
  | [b], hf => rw [List.perm_singleton.1 hf]
  | b :: b' :: bs, hf =>
    -- a name given twice is given twice in every order
    have hl := hf.length_eq
    match as, hl with
    | _ :: _ :: _, _ => rfl

theorem slot?_map (f : Json → Json) :
    slot? (ms.map fun m => (m.1, f m.2)) name = (slot? ms name).map (Option.map f) := by
  unfold slot?
  rw [List.filter_map]
  have hp : ((fun m : String × Json => m.1 == name) ∘ fun m : String × Json => (m.1, f m.2)) =
      fun m => m.1 == name := rfl
  rw [hp]
  generalize ms.filter (·.1 == name) = as
  match as with
  | [] | [_] | _ :: _ :: _ => rfl

/-- Members of other names are not looked at. -/
theorem slot?_append (h : name ∉ ns.map Prod.fst) : slot? (ms ++ ns) name = slot? ms name := by
  have hn : ns.filter (·.1 == name) = [] := by
    refine List.filter_eq_nil_iff.2 fun m hm he => h ?_
    rw [← beq_iff_eq.1 he]
    exact List.mem_map_of_mem hm
  rw [slot?, slot?, List.filter_append, hn, List.append_nil]

theorem mapM_slot?_congr {names : List String} (h : ∀ n ∈ names, slot? ns n = slot? ms n) :
    names.mapM (slot? ns) = names.mapM (slot? ms) := by
  induction names with
  | nil => rfl
  | cons n names ih =>
    have hn := h n (List.mem_cons_self ..)
    have ht := ih fun m hm => h m (List.mem_cons_of_mem _ hm)
    rw [List.mapM_cons, List.mapM_cons, hn, ht]

theorem mapM_slot?_map (f : Json → Json) (names : List String) :
    names.mapM (slot? (ms.map fun m => (m.1, f m.2))) =
      (names.mapM (slot? ms)).map (List.map (Option.map f)) := by
  induction names with
  | nil => rfl
  | cons n names ih =>
    rw [List.mapM_cons, List.mapM_cons, slot?_map, ih]
    cases slot? ms n with
    | none => rfl
    | some s => cases names.mapM (slot? ms) <;> rfl

end Slot

theorem present_names (names : List String) (slots : List (Option Json)) :
    ((present names slots).map Prod.fst).Sublist names := by
  induction names generalizing slots with
  | nil => exact List.Sublist.refl _
  | cons n names ih =>
    cases slots with
    | nil => exact List.nil_sublist _
    | cons s slots =>
      cases s with
      | none => exact (ih slots).cons n
      | some v => exact (ih slots).cons_cons n

/-! ## Arrangements -/

/-- A way to arrange a document: the members of every object in some order, all else in place. -/
structure Arrangement where
  /-- The document arranged. -/
  arrange : Json → Json
  null : arrange .null = .null
  bool : ∀ b, arrange (.bool b) = .bool b
  num : ∀ n, arrange (.num n) = .num n
  str : ∀ s, arrange (.str s) = .str s
  arr : ∀ vs, arrange (.arr vs) = .arr (vs.map arrange)
  /-- The members of an object without repeated names are the same ones. -/
  obj : ∀ ms : List (String × Json), (ms.map Prod.fst).Nodup →
    ∃ ns, arrange (.obj ms) = .obj ns ∧ ns.Perm (ms.map fun m => (m.1, arrange m.2))

attribute [simp] Arrangement.null Arrangement.bool Arrangement.num Arrangement.str Arrangement.arr

/-- Members as they were written. -/
def Arrangement.asWritten : Arrangement where
  arrange := id
  null := rfl
  bool _ := rfl
  num _ := rfl
  str _ := rfl
  arr vs := by simp
  obj ms _ := ⟨ms, rfl, by simp⟩

theorem canonicalItems_eq (vs : List Json) : canonicalItems vs = vs.map canonical := by
  induction vs with
  | nil => rw [canonicalItems, List.map_nil]
  | cons v vs ih => rw [canonicalItems, ih, List.map_cons]

theorem put_perm {name : String} {v : Json} {acc : List (String × Json)}
    (h : name ∉ acc.map Prod.fst) : (put name v acc).Perm ((name, v) :: acc) := by
  induction acc with
  | nil => exact List.Perm.refl _
  | cons m acc ih =>
    obtain ⟨n, w⟩ := m
    obtain ⟨hne, hmem⟩ := not_or.1 (mt List.mem_cons.2 h)
    by_cases hlt : name < n
    · rw [put, if_pos hlt]
    · rw [put, if_neg hlt, if_neg hne]
      exact ((ih hmem).cons (n, w)).trans (List.Perm.swap ..)

/-- Without repeated names no member is put over another one. -/
theorem canonicalMembers_perm {acc ms : List (String × Json)}
    (h : (acc.map Prod.fst ++ ms.map Prod.fst).Nodup) :
    (canonicalMembers acc ms).Perm (acc ++ ms.map fun m => (m.1, canonical m.2)) := by
  induction ms generalizing acc with
  | nil => rw [canonicalMembers, List.map_nil, List.append_nil]
  | cons m ms ih =>
    obtain ⟨n, v⟩ := m
    rw [List.map_cons, List.nodup_middle, List.nodup_cons, List.mem_append, not_or] at h
    obtain ⟨⟨hacc, hms⟩, hn⟩ := h
    have hput := put_perm (v := canonical v) hacc
    have hnodup : ((put n (canonical v) acc).map Prod.fst ++ ms.map Prod.fst).Nodup := by
      refine ((hput.map Prod.fst).append_right _).nodup_iff.2 ?_
      exact List.nodup_cons.2 ⟨by simp [hacc, hms], hn⟩
    rw [canonicalMembers, List.map_cons]
    exact (ih hnodup).trans ((hput.append_right _).trans List.perm_middle.symm)

/-- Members by their names. -/
def Arrangement.byName : Arrangement where
  arrange := canonical
  null := by simp [canonical]
  bool _ := by simp [canonical]
  num _ := by simp [canonical]
  str _ := by simp [canonical]
  arr vs := by rw [canonical, canonicalItems_eq]
  obj ms h := ⟨canonicalMembers [] ms, by rw [canonical], canonicalMembers_perm (by simpa using h)⟩

/-! ## What is written is found in every arrangement -/

section Arranged

variable (a : Arrangement)

/-- The fields of a record are found among foreign members, in every arrangement. -/
theorem slots?_arrange {names : List String} {slots : List (Option Json)}
    (extra : List (String × Json)) (hn : (names ++ extra.map Prod.fst).Nodup)
    (hl : names.length = slots.length) :
    slots? names (a.arrange (obj (present names slots ++ extra))) =
      some (slots.map (Option.map a.arrange)) := by
  obtain ⟨hnames, -, hdisj⟩ := List.nodup_append.1 hn
  have hnodup : ((present names slots ++ extra).map Prod.fst).Nodup := by
    rw [List.map_append]
    exact hn.sublist ((present_names names slots).append_right _)
  obtain ⟨ns, hns, hperm⟩ := a.obj _ hnodup
  have hfound : names.mapM (slot? (present names slots)) = some slots := slots?_assemble hnames hl
  calc slots? names (a.arrange (obj (present names slots ++ extra)))
      = names.mapM (slot? ns) := by rw [hns]; rfl
    _ = names.mapM (slot? ((present names slots ++ extra).map fun m => (m.1, a.arrange m.2))) :=
        mapM_slot?_congr fun _ _ => slot?_perm hperm
    _ = (names.mapM (slot? (present names slots ++ extra))).map (List.map (Option.map a.arrange)) :=
        mapM_slot?_map _ _
    _ = (names.mapM (slot? (present names slots))).map (List.map (Option.map a.arrange)) := by
        rw [mapM_slot?_congr fun n hn' => slot?_append fun hmem => hdisj n hn' n hmem rfl]
    _ = some (slots.map (Option.map a.arrange)) := by rw [hfound]; rfl

theorem slots?_arrange_assemble {names : List String} {slots : List (Option Json)}
    (hn : names.Nodup) (hl : names.length = slots.length) :
    slots? names (a.arrange (assemble names slots)) = some (slots.map (Option.map a.arrange)) := by
  have h := slots?_arrange a [] (by simpa using hn) hl
  rwa [List.append_nil] at h

variable {α : Type} {write : α → Json} {read : Decoder α}

theorem asOption_eq_some {v : Json} {x : α} (hnull : read .null = none) :
    asOption read v = some (some x) ↔ read v = some x := by
  cases v <;> simp [asOption, hnull]

/-- A value that may be absent, and is not written then. -/
theorem optional_arrange (hnull : read .null = none) {o : Option α} :
    optional read (o.map (a.arrange ∘ write)) = some o ↔
      ∀ x ∈ o, read (a.arrange (write x)) = some x := by
  cases o with
  | none => simp [optional]
  | some x => simp [optional, asOption_eq_some hnull]

theorem mapM_eq_self {g : α → Json} {xs : List α} :
    (xs.map g).mapM read = some xs ↔ ∀ x ∈ xs, read (g x) = some x := by
  induction xs with
  | nil => simp
  | cons x xs ih =>
    rw [List.map_cons, List.mapM_cons, List.forall_mem_cons, ← ih]
    cases read (g x) with
    | none => simp
    | some y => cases (xs.map g).mapM read <;> simp

theorem asList_arrange {xs : List α} :
    asList read (a.arrange (.arr (xs.map write))) = some xs ↔
      ∀ x ∈ xs, read (a.arrange (write x)) = some x := by
  rw [a.arr, List.map_map, asList, mapM_eq_self]
  rfl

end Arranged

end DownloadTriage.Json
