import DownloadTriage.Json.Basic

/-!
# Records in JSON

A record has named fields in a fixed order. `assemble` writes the fields that are present as an
object; `slots?` finds them again in an object, where their order and other members are free but no
field may be given twice, or in a list, by position.

* `slots?_assemble`: the fields written are the fields found.
* `lookup_present`: each is found by its name.
-/

namespace DownloadTriage.Json

/-- A reader of a value. -/
abbrev Decoder (α : Type) := Json → Option α

/-! ## Values -/

/-- A text. -/
def asString : Decoder String
  | str s => some s
  | _ => none

/-- A truth value. -/
def asBool : Decoder Bool
  | bool b => some b
  | _ => none

/-- An integer between bounds. A double is none, also when it is whole. -/
def asInteger (low high : Int) : Decoder Int
  | num (.integer i) => if low ≤ i ∧ i ≤ high then some i else none
  | _ => none

/-- A natural number below a bound. -/
def asNatBelow (bound : Nat) (v : Json) : Option Nat :=
  (asInteger 0 (bound - 1) v).map Int.toNat

/-- A double; an integer is taken to the nearest one. -/
def asFloat : Decoder Binary64
  | num (.integer i) => some (Binary64.ofNat (i < 0) i.natAbs)
  | num (.float x) => some x
  | _ => none

/-- A list, item by item. -/
def asList {α : Type} (item : Decoder α) : Decoder (List α)
  | arr vs => vs.mapM item
  | _ => none

/-- A value or null. -/
def asOption {α : Type} (value : Decoder α) : Decoder (Option α)
  | null => some none
  | v => (value v).map some

/-! ## Fields -/

/-- A field that must be there. -/
def required {α : Type} (value : Decoder α) (slot : Option Json) : Option α := slot.bind value

/-- A field that may be missing or null. -/
def optional {α : Type} (value : Decoder α) : Option Json → Option (Option α)
  | none => some none
  | some v => asOption value v

/-- A field with a value of its own when it is missing. -/
def orElse {α : Type} (missing : α) (value : Decoder α) : Option Json → Option α
  | none => some missing
  | some v => value v

/-- A field with a value of its own when it is missing or null. -/
def orNull {α : Type} (missing : α) (value : Decoder α) (slot : Option Json) : Option α :=
  (optional value slot).map (·.getD missing)

/-! ## Records -/

/-- The fields that are present, as members. -/
def present (names : List String) (slots : List (Option Json)) : List (String × Json) :=
  (names.zip slots).filterMap fun (n, s) => s.map (n, ·)

/-- The object of the fields that are present. -/
def assemble (names : List String) (slots : List (Option Json)) : Json := obj (present names slots)

/-- What a value is called by a refusal. -/
def kind : Json → String
  | null => "null"
  | bool _ => "a boolean"
  | num (.integer _) => "an integer"
  | num (.float _) => "a float"
  | str _ => "a string"
  | arr _ => "a sequence"
  | obj _ => "a map"
  | unreadable => "an unreadable value"

/-- The members that a value brings into an object in whose midst it is written. Null brings none,
and a value without members is refused. -/
def membersOf : Json → Except String (List (String × Json))
  | obj ms => .ok ms
  | null => .ok []
  | v => .error ("can only flatten structs and maps (got " ++ v.kind ++ ")")

/-- The field of that name among members; none when it is given twice. -/
def slot? (ms : List (String × Json)) (name : String) : Option (Option Json) :=
  match ms.filter (·.1 == name) with
  | [] => some none
  | [m] => some (some m.2)
  | _ => none

/-- The fields of a record in their order. -/
def slots? (names : List String) : Json → Option (List (Option Json))
  | obj ms => names.mapM (slot? ms)
  | arr vs =>
    if vs.length ≤ names.length then
      some (vs.map some ++ List.replicate (names.length - vs.length) none)
    else none
  | _ => none

/-! ## What is written is found -/

theorem filter_present_of_not_mem {names : List String} {slots : List (Option Json)} {name : String}
    (h : name ∉ names) : (present names slots).filter (·.1 == name) = [] := by
  refine List.filter_eq_nil_iff.2 fun m hm => ?_
  obtain ⟨⟨n, s⟩, hz, hs⟩ := List.mem_filterMap.1 hm
  obtain ⟨v, rfl, rfl⟩ := Option.map_eq_some_iff.1 hs
  have hn := (List.of_mem_zip hz).1
  simp only [beq_iff_eq]
  rintro rfl
  exact h hn

theorem slot?_present_cons_self {names : List String} {slots : List (Option Json)} {name : String}
    {s : Option Json} (h : name ∉ names) :
    slot? (present (name :: names) (s :: slots)) name = some s := by
  have hf : (present names slots).filter (·.1 == name) = [] := filter_present_of_not_mem h
  cases s with
  | none =>
    have : present (name :: names) (none :: slots) = present names slots := rfl
    rw [this, slot?, hf]
  | some v =>
    have : present (name :: names) (some v :: slots) = (name, v) :: present names slots := rfl
    rw [this, slot?, List.filter_cons_of_pos (by simp), hf]

theorem slot?_present_cons_of_ne {names : List String} {slots : List (Option Json)}
    {name other : String} {s : Option Json} (h : other ≠ name) :
    slot? (present (other :: names) (s :: slots)) name = slot? (present names slots) name := by
  cases s with
  | none => rfl
  | some v =>
    have : present (other :: names) (some v :: slots) = (other, v) :: present names slots := rfl
    rw [this, slot?, slot?, List.filter_cons_of_neg (by simp [h])]

theorem slots?_assemble {names : List String} {slots : List (Option Json)} (hn : names.Nodup)
    (hl : names.length = slots.length) : slots? names (assemble names slots) = some slots := by
  suffices ∀ (names : List String) (slots : List (Option Json)) (ms : List (String × Json)),
      names.Nodup → names.length = slots.length →
      (∀ n ∈ names, slot? ms n = slot? (present names slots) n) →
      names.mapM (slot? ms) = some slots from
    this names slots _ hn hl fun _ _ => rfl
  intro names
  induction names with
  | nil => intro slots _ _ hl _; cases slots with
    | nil => rfl
    | cons _ _ => simp at hl
  | cons n names ih =>
    intro slots ms hn hl h
    obtain ⟨hmem, hn⟩ := List.nodup_cons.1 hn
    cases slots with
    | nil => simp at hl
    | cons s slots =>
      have hs : slot? ms n = some s := by
        rw [h n (by simp)]; exact slot?_present_cons_self hmem
      have ht := ih slots ms hn (by simpa using hl) fun m hm => by
        rw [h m (by simp [hm])]
        exact slot?_present_cons_of_ne (by rintro rfl; exact hmem hm)
      rw [List.mapM_cons, hs, ht]
      rfl

/-- A field that is written is found by its name. -/
theorem lookup_present {names : List String} {slots : List (Option Json)} {i : Nat}
    {name : String} {s : Option Json} (hn : names.Nodup) (hi : names[i]? = some name)
    (hs : slots[i]? = some s) : (present names slots).lookup name = s := by
  induction names generalizing slots i with
  | nil => cases hi
  | cons n names ih =>
    obtain ⟨hmem, hn⟩ := List.nodup_cons.1 hn
    cases slots with
    | nil => cases hs
    | cons t slots =>
      cases i with
      | zero =>
        obtain rfl : n = name := Option.some.inj hi
        obtain rfl : t = s := Option.some.inj hs
        cases t with
        | some v => exact List.lookup_cons_self
        | none =>
          -- no other field has that name
          show (present names slots).lookup n = none
          refine List.lookup_eq_none_iff.2 fun m hm => ?_
          have hnil : (present names slots).filter (·.1 == n) = [] := filter_present_of_not_mem hmem
          have hf := List.filter_eq_nil_iff.1 hnil m hm
          rw [beq_iff_eq] at hf
          exact bne_iff_ne.2 fun he => hf he.symm
      | succ i =>
        have hne : (name == n) = false :=
          beq_false_of_ne fun he => hmem (he ▸ List.mem_of_getElem? hi)
        rw [← ih hn hi hs]
        cases t with
        | none => rfl
        | some v =>
          show List.lookup name ((n, v) :: present names slots) = _
          rw [List.lookup_cons, hne]

end DownloadTriage.Json
