import DownloadTriage.Collector.Discovery
import DownloadTriage.Proofs.Decoding
import DownloadTriage.Proofs.Grammar
import DownloadTriage.Proofs.Members
import Mathlib.Data.List.Perm.Basic

/-!
# What a datagram advertises

A datagram comes from anyone. It advertises something exactly if it is one document that is the record
of a reply, of the right service, with a port and with addresses; what is advertised is then a URL for
each address. A collector that writes such a record is understood, in whatever order its members stand
and whatever else it adds.

* `reads_reply`: the replies that a document holds.
* `written_decimal`, `written_strs`, `written_object`: what a collector writes is of the grammar.
* `urls_eq_of_advertises`, `urls_eq_nil`: what a datagram advertises, and that any other is refused.
* `Discovery.urls_advertised`: all of it together.
-/

namespace DownloadTriage.Json

/-! ## A field with a value of its own where it is missing -/

/-- A field that may be missing, and then has a value of its own. Null is a value like any other. -/
inductive OrElse {α : Type} (missing : α) (P : Json → α → Prop) : Option Json → α → Prop
  | missing : OrElse missing P none missing
  | given {v : Json} {a : α} (h : P v a) : OrElse missing P (some v) a

theorem Reads.orElse {α : Type} {read : Decoder α} {P : Json → α → Prop} (h : Reads read P)
    {missing : α} {slot : Option Json} {a : α} :
    Json.orElse missing read slot = some a ↔ OrElse missing P slot a := by
  cases slot with
  | none =>
    rw [Json.orElse, Option.some.injEq]
    exact ⟨by rintro rfl; exact .missing, by rintro ⟨⟩; rfl⟩
  | some v =>
    rw [Json.orElse, h v a]
    exact ⟨.given, by rintro (_ | hv); exact hv⟩

theorem isList_string_iff {v : Json} {ss : List String} :
    IsList (Exactly str) v ss ↔ v = strs ss := by
  have hmap (vs : List Json) : List.Forall₂ (Exactly str) vs ss ↔ vs = ss.map str := by
    unfold Exactly
    rw [← List.forall₂_map_right_iff (R := fun v w : Json => v = w), List.forall₂_eq_eq_eq]
  unfold IsList strs
  simp only [hmap, exists_eq_right]

/-! ## Numbers that are written -/

theorem bytes_digitChar {k : Nat} (h : k < 10) :
    Utf8.bytes (String.ofList [k.digitChar]) = [UInt8.ofNat (k + 0x30)] := by
  rw [bytes_ofList, List.flatMap_singleton]
  revert k
  decide

/-- The decimal digits of a number. -/
def decimal (n : Nat) : List UInt8 := Utf8.bytes (toString n)

theorem decimal_of_lt {n : Nat} (h : n < 10) : decimal n = [UInt8.ofNat (n + 0x30)] := by
  have hn : toString n = String.ofList (Nat.toDigits 10 n) := rfl
  rw [decimal, hn, Nat.toDigits_of_lt_base h, bytes_digitChar h]

/-- The last digit stands behind the others. -/
theorem decimal_of_ge {n : Nat} (h : 10 ≤ n) :
    decimal n = decimal (n / 10) ++ [UInt8.ofNat (n % 10 + 0x30)] := by
  have hlast : n % 10 < 10 := Nat.mod_lt n (by decide)
  have hn (m : Nat) : toString m = String.ofList (Nat.toDigits 10 m) := rfl
  have hdigits : Nat.toDigits 10 n = Nat.toDigits 10 (n / 10) ++ [(n % 10).digitChar] := by
    rw [← Nat.toDigits_of_lt_base hlast, Nat.toDigits_append_toDigits (by decide) (by omega) hlast,
      Nat.div_add_mod]
  rw [decimal, decimal, hn, hn, hdigits, String.ofList_append, Utf8.bytes_append,
    bytes_digitChar hlast]

theorem isDigit_of_lt {k : Nat} (h : k < 10) : isDigit (UInt8.ofNat (k + 0x30)) = true := by
  revert k
  decide

theorem toNat_digit {k : Nat} (h : k < 10) : (UInt8.ofNat (k + 0x30)).toNat - 0x30 = k := by
  revert k
  decide

theorem digitsValue_concat (ds : List UInt8) (d : UInt8) :
    digitsValue (ds ++ [d]) = digitsValue ds * 10 + (d.toNat - 0x30) := by
  rw [digitsValue, List.foldl_append]
  rfl

theorem digitsValue_decimal (n : Nat) : digitsValue (decimal n) = n := by
  induction n using Nat.strongRecOn with
  | ind n ih =>
    by_cases h : n < 10
    · rw [decimal_of_lt h]
      show 0 * 10 + ((UInt8.ofNat (n + 0x30)).toNat - 0x30) = n
      rw [toNat_digit h]
      omega
    · rw [decimal_of_ge (by omega), digitsValue_concat, ih (n / 10) (by omega),
        toNat_digit (Nat.mod_lt n (by decide))]
      omega

/-- **Decimal digits** begin with a zero only where there is no other digit. -/
theorem isWhole_decimal (n : Nat) : IsWhole (decimal n) := by
  induction n using Nat.strongRecOn with
  | ind n ih =>
    by_cases h : n < 10
    · rw [decimal_of_lt h]
      refine ⟨?_, List.cons_ne_nil _ _, ?_⟩
      · intro d hd
        rw [List.mem_singleton.1 hd]
        exact isDigit_of_lt h
      · intro hzero
        rw [List.head?_cons] at hzero
        rw [Option.some.inj hzero]
    · obtain ⟨hdigits, hne, hzero⟩ := ih (n / 10) (by omega)
      rw [decimal_of_ge (by omega)]
      refine ⟨?_, by simp, ?_⟩
      · intro d hd
        rcases List.mem_append.1 hd with hd | hd
        · exact hdigits d hd
        · rw [List.mem_singleton.1 hd]
          exact isDigit_of_lt (Nat.mod_lt n (by decide))
      · intro hfirst
        rw [List.head?_append_of_ne_nil _ hne] at hfirst
        -- a zero in front of the last digit would be all of them, but their value is not zero
        have hvalue := digitsValue_decimal (n / 10)
        rw [hzero hfirst] at hvalue
        have : n / 10 = 0 := hvalue.symm
        omega

theorem le_foldl_digits (ds : List UInt8) (m : Nat) :
    m ≤ ds.foldl (fun n d => n * 10 + (d.toNat - 0x30)) m := by
  induction ds generalizing m with
  | nil => exact Nat.le_refl m
  | cons d ds ih =>
    have := ih (m * 10 + (d.toNat - 0x30))
    rw [List.foldl_cons]
    omega

/-- Digits of a number that 64 bits hold are gathered to the last one. -/
theorem gather_eq {ds : List UInt8} {m : Nat}
    (h : ds.foldl (fun n d => n * 10 + (d.toNat - 0x30)) m ≤ maxSignificand) :
    gather m ds = (ds.foldl (fun n d => n * 10 + (d.toNat - 0x30)) m, []) := by
  induction ds generalizing m with
  | nil => rfl
  | cons d ds ih =>
    have hnext := le_foldl_digits ds (m * 10 + (d.toNat - 0x30))
    rw [List.foldl_cons] at h ⊢
    rw [gather, if_pos (by omega), ih h]

/-- **A natural number of 64 bits** as it is written stands for itself. -/
theorem written_decimal {n : Nat} (h : n ≤ maxSignificand) : Written (decimal n) (nat n) := by
  have hspelled : (Numeral.mk false (decimal n) [] none).Spelled (decimal n) := by
    refine ⟨isWhole_decimal n, fun d hd => absurd hd List.not_mem_nil, [], .none, ?_⟩
    simp [pointed]
  have hvalue := digitsValue_decimal n
  unfold digitsValue at hvalue
  have hgather : gather 0 (decimal n) = (n, []) := by
    have := @gather_eq (decimal n) 0 (by rw [hvalue]; exact h)
    rwa [hvalue] at this
  have hnumber : (Numeral.mk false (decimal n) [] none).number? = some (.integer n) := by
    simp [Numeral.number?, hgather]
  have hwritten := Written.number hspelled
  rw [hnumber] at hwritten
  exact hwritten

theorem encode_nat (n : Nat) : encode (nat n) = decimal n := by
  rw [nat, encode, encodeNumber]
  rfl

/-! ## Texts that are written -/

theorem blanks_nil : Blanks [] := fun _ hb => absurd hb List.not_mem_nil

theorem body_escape (s : String) : Body (escape (Utf8.bytes s)) :=
  body_of_spells (spells_escape _)

theorem written_string (s : String) : Written (encode (str s)) (str s) := by
  have h := Written.string (body_escape s)
  rw [textOfBody_escape] at h
  rw [encode, encodeString]
  exact h

theorem writtenItems_strings (s : String) (ss : List String) :
    WrittenItems (encodeItems ((s :: ss).map str)) ((s :: ss).map str) := by
  induction ss generalizing s with
  | nil =>
    have h := WrittenItems.last (written_string s) blanks_nil
    rw [List.append_nil] at h
    exact h
  | cons t ss ih => exact .more (written_string s) blanks_nil blanks_nil (ih t)

/-- **A list of texts** as it is written. -/
theorem written_strs (ss : List String) : Written (encode (strs ss)) (strs ss) := by
  cases ss with
  | nil => exact .noItems blanks_nil
  | cons s ss => exact .items blanks_nil (writtenItems_strings s ss)

/-! ## Objects that are written -/

/-- Members with commas between them, of each its name and the text of its value. -/
def membersText : List (String × List UInt8) → List UInt8
  | [] => []
  | [m] => encodeString m.1 ++ colon :: m.2
  | m :: n :: ms => encodeString m.1 ++ colon :: (m.2 ++ comma :: membersText (n :: ms))

/-- The text of an object. -/
def objectText (ms : List (String × List UInt8)) : List UInt8 :=
  openBrace :: membersText ms ++ [closeBrace]

/-- A value is written as its members are. -/
theorem encode_obj (ms : List (String × Json)) :
    encode (obj ms) = objectText (ms.map fun m => (m.1, encode m.2)) := by
  have hmembers : ∀ ms : List (String × Json),
      encodeMembers ms = membersText (ms.map fun m => (m.1, encode m.2)) := by
    intro ms
    induction ms with
    | nil => rfl
    | cons m ms ih =>
      cases ms with
      | nil => rfl
      | cons n ms =>
        rw [encodeMembers, ih]
        rfl
  rw [encode, hmembers, objectText]

/-- The text of a member stands for its value, and its name for itself. -/
def MemberText (m : String × List UInt8) (v : String × Json) : Prop := m.1 = v.1 ∧ Written m.2 v.2

theorem writtenMembers_text {m : String × List UInt8} {v : String × Json}
    {ms : List (String × List UInt8)} {vs : List (String × Json)} (h : MemberText m v)
    (hs : List.Forall₂ MemberText ms vs) :
    WrittenMembers (membersText (m :: ms)) ((v :: vs).map fun v => (some v.1, v.2)) := by
  have hname (s : String) : textOfBody (escape (Utf8.bytes s)) = some s := textOfBody_escape s
  induction hs generalizing m v with
  | nil =>
    obtain ⟨n, text⟩ := m
    obtain ⟨_, v⟩ := v
    obtain ⟨rfl, hv⟩ := h
    have hlast := WrittenMembers.last (body_escape n) blanks_nil blanks_nil hv blanks_nil
    rw [hname, List.append_nil] at hlast
    simpa [membersText, encodeString] using hlast
  | cons hnext _ ih =>
    obtain ⟨n, text⟩ := m
    obtain ⟨_, v⟩ := v
    obtain ⟨rfl, hv⟩ := h
    have hmore := WrittenMembers.more (body_escape n) blanks_nil blanks_nil hv blanks_nil blanks_nil
      (ih hnext)
    rw [hname] at hmore
    simpa [membersText, encodeString] using hmore

theorem ofMembers_some (vs : List (String × Json)) :
    ofMembers (vs.map fun v => (some v.1, v.2)) = obj vs := by
  have hall : (vs.map fun v => (some v.1, v.2)).mapM
      (fun (m : Option String × Json) => m.1.map (·, m.2)) = some vs := by
    rw [mapM_eq_some_iff, List.forall₂_map_left_iff]
    exact List.forall₂_same.2 fun v _ => rfl
  unfold ofMembers
  rw [hall]

/-- **An object** is written as soon as its members are. -/
theorem written_object {ms : List (String × List UInt8)} {vs : List (String × Json)}
    (h : List.Forall₂ MemberText ms vs) : Written (objectText ms) (obj vs) := by
  cases h with
  | nil => exact .noMembers blanks_nil
  | cons hm hs =>
    have hmembers := Written.members blanks_nil (writtenMembers_text hm hs)
    rw [ofMembers_some] at hmembers
    exact hmembers

/-- Fields are found by their names, in any order and in the midst of others. -/
theorem gives_perm {names : List String} {vs core extra : List (String × Json)}
    {field : String → Option Json} (hperm : vs.Perm (core ++ extra))
    (hextra : ∀ n ∈ names, n ∉ extra.map Prod.fst)
    (hcore : ∀ n ∈ names, slot? core n = some (field n)) : Gives names (obj vs) field := by
  refine .object fun n hn => slot?_eq_some_iff.1 ?_
  rw [slot?_perm hperm, slot?_append (hextra n hn)]
  exact hcore n hn

end DownloadTriage.Json

namespace DownloadTriage.Discovery

open Json

/-! ## Replies -/

/-- A port number. -/
def IsPort (v : Json) (n : Nat) : Prop := v = nat n ∧ n < 65536

theorem reads_port : Reads (asNatBelow 65536) IsPort := fun _ _ => asNatBelow_eq_some_iff

/-- A reply, as a value says it: only its port may be null, and both port and addresses may be
missing. -/
def IsReply (v : Json) (r : Reply) : Prop :=
  ∃ field, Gives replyNames v field ∧
    Must (Exactly str) (field "service") r.service ∧
    May IsPort (field "port") r.port ∧
    OrElse [] (IsList (Exactly str)) (field "ips") r.ips

theorem reads_reply : Reads Reply.ofJson? IsReply := by
  refine reads_record (by decide) fun field r => ?_
  simp only [← reads_string.must, ← reads_port.may, ← reads_string.list.orElse]
  constructor
  · intro h
    obtain ⟨_, hservice, h⟩ := Option.bind_eq_some_iff.1 h
    obtain ⟨_, hport, h⟩ := Option.bind_eq_some_iff.1 h
    obtain ⟨_, hips, h⟩ := Option.bind_eq_some_iff.1 h
    obtain rfl := Option.some.inj h
    exact ⟨hservice, hport, hips⟩
  · rintro ⟨hservice, hport, hips⟩
    simp only [replyNames, List.map_cons, List.map_nil, hservice, hport, hips, Option.bind_eq_bind,
      Option.bind_some]

/-! ## Datagrams -/

/-- The datagram is one document, with nothing but blanks around it, and a record with these fields
of a reply. -/
def Says (datagram : List UInt8) (field : String → Option Json) : Prop :=
  ∃ l m r v, datagram = l ++ (m ++ r) ∧ Blanks l ∧ Written m v ∧ Blanks r ∧ Gives replyNames v field

/-- The fields are those of a collector at a port, with these addresses. -/
structure Advertises (field : String → Option Json) (port : Nat) (ips : List String) : Prop where
  rightService : field "service" = some (str "mAIware-server")
  atPort : field "port" = some (nat port)
  inRange : 1 ≤ port ∧ port ≤ 65535
  addresses : field "ips" = some (strs ips) ∨ field "ips" = none ∧ ips = []

variable {datagram : List UInt8} {field : String → Option Json} {port : Nat} {ips : List String}

/-- A datagram says one thing of each field. -/
theorem Says.unique {other : String → Option Json} (h : Says datagram field)
    (h' : Says datagram other) : ∀ n ∈ replyNames, field n = other n := by
  obtain ⟨l, m, r, v, hd, hl, hm, hr, hv⟩ := h
  obtain ⟨l', m', r', v', hd', hl', hm', hr', hv'⟩ := h'
  have hread := Json.read_eq_some_iff.2 ⟨l, m, r, hd, hl, hm, hr⟩
  have hread' := Json.read_eq_some_iff.2 ⟨l', m', r', hd', hl', hm', hr'⟩
  obtain rfl : v = v' := Option.some.inj (hread.symm.trans hread')
  have hnames : replyNames.Nodup := by decide
  have hslots := (slots?_eq_some_iff hnames).2 ⟨field, hv, rfl⟩
  have hslots' := (slots?_eq_some_iff hnames).2 ⟨other, hv', rfl⟩
  exact List.map_eq_map_iff.1 (Option.some.inj (hslots.symm.trans hslots'))

/-- What a datagram says is read from it. -/
theorem read_eq_some_iff_said {r : Reply} :
    (Json.read datagram).bind Reply.ofJson? = some r ↔
      ∃ field, Says datagram field ∧
        Must (Exactly str) (field "service") r.service ∧
        May IsPort (field "port") r.port ∧
        OrElse [] (IsList (Exactly str)) (field "ips") r.ips := by
  rw [Option.bind_eq_some_iff]
  constructor
  · rintro ⟨v, hread, hr⟩
    obtain ⟨l, m, e, rfl, hl, hm, he⟩ := Json.read_eq_some_iff.1 hread
    obtain ⟨field, hgives, hfields⟩ := (reads_reply v r).1 hr
    exact ⟨field, ⟨l, m, e, v, rfl, hl, hm, he, hgives⟩, hfields⟩
  · rintro ⟨field, ⟨l, m, e, v, rfl, hl, hm, he, hgives⟩, hfields⟩
    exact ⟨v, Json.read_eq_some_iff.2 ⟨l, m, e, rfl, hl, hm, he⟩,
      (reads_reply v r).2 ⟨field, hgives, hfields⟩⟩

/-- **A collector is understood**: a URL for each address, in order. -/
theorem urls_eq_of_advertises (hsaid : Says datagram field) (h : Advertises field port ips) :
    urls datagram = ips.map (Whereabouts.urlOf port) := by
  obtain ⟨hlow, hhigh⟩ := h.inRange
  have hreply : (Json.read datagram).bind Reply.ofJson? =
      some ⟨Discovery.service, some port, ips⟩ := by
    refine read_eq_some_iff_said.2 ⟨field, hsaid, ⟨_, h.rightService, rfl⟩, ?_, ?_⟩
    · rw [h.atPort]
      exact .given (by simp [nat]) ⟨rfl, by omega⟩
    · rcases h.addresses with hips | ⟨hips, hnil⟩
      · rw [hips]
        exact .given (isList_string_iff.2 rfl)
      · rw [hips]
        subst hnil
        exact .missing
  rw [urls, hreply]
  exact if_pos ⟨by omega, rfl⟩

/-- What is not empty was advertised. -/
theorem advertises_of_urls_ne_nil (h : urls datagram ≠ []) :
    ∃ field port ips, Says datagram field ∧ Advertises field port ips := by
  unfold urls at h
  cases hreply : (Json.read datagram).bind Reply.ofJson? with
  | none =>
    rw [hreply] at h
    exact absurd rfl h
  | some r =>
    rw [hreply] at h
    dsimp only at h
    obtain ⟨service, port, ips⟩ := r
    obtain ⟨field, hsaid, ⟨_, hservice, hs⟩, hport, hips⟩ := read_eq_some_iff_said.1 hreply
    cases port with
    | none => exact absurd rfl h
    | some port =>
      unfold Reply.urls at h
      dsimp only at h hservice hs hport hips
      split at h
      case isFalse => exact absurd rfl h
      rename_i hright
      obtain ⟨hzero, rfl⟩ := hright
      cases hs
      generalize hp : field "port" = slot at hport
      cases hport with
      | given _ hv =>
        obtain ⟨rfl, hbound⟩ := hv
        refine ⟨field, port, ips, hsaid, hservice, hp, ⟨by omega, by omega⟩, ?_⟩
        generalize hi : field "ips" = slot at hips
        cases hips with
        | missing => exact .inr ⟨rfl, rfl⟩
        | given hlist => rw [isList_string_iff.1 hlist]; exact .inl rfl

/-- **Any other datagram is refused.** -/
theorem urls_eq_nil (h : ∀ field port ips, Says datagram field → ¬ Advertises field port ips) :
    urls datagram = [] := by
  by_contra hne
  obtain ⟨field, port, ips, hsaid, hadvertises⟩ := advertises_of_urls_ne_nil hne
  exact h field port ips hsaid hadvertises

/-! ## What a collector writes -/

/-- The members of a collector's reply, each with the text of its value. -/
def replyMembers (port : Nat) (ips : List String) : List (String × List UInt8) :=
  [("service", encode (str "mAIware-server")), ("port", encode (nat port)),
    ("ips", encode (strs ips))]

/-- The fields of a collector's reply. -/
def replyValues (port : Nat) (ips : List String) : List (String × Json) :=
  [("service", str "mAIware-server"), ("port", nat port), ("ips", strs ips)]

theorem replyMembers_text (hport : port ≤ 65535) (ips : List String) :
    List.Forall₂ MemberText (replyMembers port ips) (replyValues port ips) := by
  have hwritten : Written (encode (nat port)) (nat port) := by
    rw [encode_nat]
    exact written_decimal (hport.trans (by decide))
  exact .cons ⟨rfl, written_string _⟩ (.cons ⟨rfl, hwritten⟩ (.cons ⟨rfl, written_strs ips⟩ .nil))

/-- **A reply as a collector writes it** says its fields, in any order of its members and whatever
stands beside them. -/
theorem says_objectText {extra ms : List (String × List UInt8)} (hport : port ≤ 65535)
    (hextra : ∀ m ∈ extra, m.1 ∉ replyNames ∧ ∃ v, Written m.2 v)
    (hperm : ms.Perm (replyMembers port ips ++ extra)) :
    Says (objectText ms) ((replyValues port ips).lookup ·) := by
  -- every other member has a value as well, which no field of the reply looks at
  choose! value hvalue using fun m hm => (hextra m hm).2
  have hothers : List.Forall₂ MemberText extra (extra.map fun m => (m.1, value m)) :=
    List.forall₂_map_right_iff.2 (List.forall₂_same.2 fun m hm => ⟨rfl, hvalue m hm⟩)
  have hnames : ∀ n ∈ replyNames, n ∉ (extra.map fun m => (m.1, value m)).map Prod.fst := by
    intro n hn hmem
    rw [List.map_map] at hmem
    obtain ⟨m, hm, rfl⟩ := List.mem_map.1 hmem
    exact (hextra m hm).1 hn
  have hfields : ∀ n ∈ replyNames,
      slot? (replyValues port ips) n = some ((replyValues port ips).lookup n) := by
    intro n hn
    simp only [replyNames, List.mem_cons, List.not_mem_nil, or_false] at hn
    rcases hn with rfl | rfl | rfl <;> rfl
  obtain ⟨vs, hvs, hperm'⟩ := List.perm_comp_forall₂ hperm
    (List.rel_append (replyMembers_text hport ips) hothers)
  exact ⟨[], objectText ms, [], obj vs, by simp, blanks_nil, written_object hvs, blanks_nil,
    gives_perm hperm' hnames hfields⟩

theorem replyValues_advertises (hport : 1 ≤ port ∧ port ≤ 65535) (ips : List String) :
    Advertises ((replyValues port ips).lookup ·) port ips where
  rightService := rfl
  atPort := rfl
  inRange := hport
  addresses := .inl rfl

/-- **What a datagram advertises.** URLs are advertised exactly by a datagram that is one document,
the record of a collector's reply with a port, and then they are those of its addresses, one for each
in their order. Any other datagram advertises nothing: one that is no such record, one of another
service or of none, one whose port is missing, null, zero, too large or no integer, and one whose
addresses are no list of texts. A reply as a collector writes it, with its members in any order and
among any other members, is understood. -/
theorem urls_advertised :
    (∀ datagram us, us ≠ [] →
      (urls datagram = us ↔ ∃ field port ips, Says datagram field ∧ Advertises field port ips ∧
        us = ips.map fun ip => "http://" ++ ip ++ ":" ++ toString port)) ∧
    (∀ datagram field port ips, Says datagram field → Advertises field port ips →
      urls datagram = ips.map fun ip => "http://" ++ ip ++ ":" ++ toString port) ∧
    (∀ datagram, (∀ field, ¬ Says datagram field) → urls datagram = []) ∧
    (∀ datagram field, Says datagram field →
      (field "service" ≠ some (str "mAIware-server") ∨
        (∀ port, 1 ≤ port → port ≤ 65535 → field "port" ≠ some (nat port)) ∨
        (∃ v, field "ips" = some v ∧ ∀ ips, v ≠ strs ips)) → urls datagram = []) ∧
    (∀ port ips extra ms, 1 ≤ port → port ≤ 65535 →
      (∀ m ∈ extra, m.1 ∉ replyNames ∧ ∃ v, Written m.2 v) →
      ms.Perm (replyMembers port ips ++ extra) →
      urls (objectText ms) = ips.map fun ip => "http://" ++ ip ++ ":" ++ toString port) := by
  refine ⟨?_, ?_, ?_, ?_, ?_⟩
  · intro datagram us hne
    constructor
    · rintro rfl
      obtain ⟨field, port, ips, hsaid, hadvertises⟩ := advertises_of_urls_ne_nil hne
      exact ⟨field, port, ips, hsaid, hadvertises, urls_eq_of_advertises hsaid hadvertises⟩
    · rintro ⟨field, port, ips, hsaid, hadvertises, rfl⟩
      exact urls_eq_of_advertises hsaid hadvertises
  · intro datagram field port ips hsaid hadvertises
    exact urls_eq_of_advertises hsaid hadvertises
  · intro datagram hnot
    exact urls_eq_nil fun field port ips hsaid _ => hnot field hsaid
  · intro datagram field hsaid hwrong
    refine urls_eq_nil fun other port ips hother hadvertises => ?_
    have hsame := hsaid.unique hother
    obtain ⟨hservice, hport, ⟨hlow, hhigh⟩, hips⟩ := hadvertises
    rw [← hsame "service" (by decide)] at hservice
    rw [← hsame "port" (by decide)] at hport
    rw [← hsame "ips" (by decide)] at hips
    rcases hwrong with hw | hw | ⟨v, hv, hw⟩
    · exact hw hservice
    · exact hw port hlow hhigh hport
    · rcases hips with hips | ⟨hips, -⟩
      · exact hw ips (Option.some.inj (hv.symm.trans hips))
      · rw [hv] at hips
        cases hips
  · intro port ips extra ms hlow hhigh hextra hperm
    exact urls_eq_of_advertises (says_objectText hhigh hextra hperm)
      (replyValues_advertises ⟨hlow, hhigh⟩ ips)

theorem urls_advertised_reversed :
    (∀ m ∈ [("load", encode (strs ["low"]))], m.1 ∉ replyNames ∧ ∃ v, Written m.2 v) ∧
    urls (encode (obj [("load", strs ["low"]), ("ips", strs ["10.0.0.2", "10.0.0.3"]),
      ("port", nat 8080), ("service", str "mAIware-server")])) =
      ["http://10.0.0.2:8080", "http://10.0.0.3:8080"] := by
  have hextra : ∀ m ∈ [("load", encode (strs ["low"]))], m.1 ∉ replyNames ∧ ∃ v, Written m.2 v := by
    intro m hm
    rw [List.mem_singleton.1 hm]
    exact ⟨by decide, _, written_strs ["low"]⟩
  refine ⟨hextra, ?_⟩
  rw [encode_obj]
  exact urls_advertised.2.2.2.2 8080 ["10.0.0.2", "10.0.0.3"] _ _ (by decide) (by decide) hextra
    (List.reverse_perm (replyMembers 8080 ["10.0.0.2", "10.0.0.3"] ++
      [("load", encode (strs ["low"]))]))

end DownloadTriage.Discovery
