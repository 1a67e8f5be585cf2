import DownloadTriage.Program.Rehearsal
import DownloadTriage.Proofs.Sharing
import Mathlib.Data.List.InsertIdx

/-!
# Rivals for the collector in use

A caller that reads that no collector is in use looks for one, and may be at it for long. Until it
has used one itself it is a **rival**: whatever the others use meanwhile, it uses what it finds, the
fallback at last. No other caller replaces the collector in use. So a collector that is in use is
replaced at most once by each of the rivals that there were when it came into use, unless it is
given up.

* `Program.Vies`: a program that uses a collector only as a rival.
* `Locator.Call.program_vies`: every call does.
* `Rivalry.step_spent`: a step that gives nothing up.
* `Rivalry.play_replaced`: who replaces a collector in use, and how often.
* `Rivalry.play_overtaken`: a fallback that replaces a collector that answered.
-/

namespace DownloadTriage

namespace Request

/-- A request to use a collector. -/
def adopts : Request → Bool
  | .use (some _) => true
  | _ => false

/-- A request to give up the collector in use. -/
def givesUp : Request → Bool
  | .use none => true
  | _ => false

/-- Since when who asks is a rival after the reply: one becomes a rival by reading that no collector
is in use, and is none after using one, or after reading that one is in use. -/
def rivalSince (now : Nat) (since : Option Nat) : (r : Request) → Reply r → Option Nat
  | .endpoint, found => if found.isNone then some now else none
  | .use _, _ => none
  | _, _ => since

/-- The request is neither for the collector in use nor to use one. -/
def stands : Request → Bool
  | .endpoint | .use _ => false
  | _ => true

theorem rivalSince_of_stands {r : Request} (h : r.stands = true) (now : Nat)
    (since : Option Nat) (x : Reply r) : r.rivalSince now since x = since := by
  cases r <;> first | rfl | cases h

theorem not_adopts_of_stands {r : Request} (h : r.stands = true) : r.adopts = false := by
  cases r <;> first | rfl | cases h

theorem stands_of_queries {r : Request} (h : r.queries = true) : r.stands = true := by
  cases r <;> first | rfl | cases h

end Request

/-! ## What a program does as a rival -/

namespace Program

variable {α β : Type} {since : Option Nat}

/-- Whatever the replies and whenever they come, the program uses a collector only as a rival, and
in the end it is one or not as said. -/
def Vies : Program α → Option Nat → (Option Nat → α → Prop) → Prop
  | done a, since, R => R since a
  | ask r next, since, R =>
    (r.adopts = true → since ≠ none) ∧ ∀ now x, (next x).Vies (r.rivalSince now since x) R

theorem Vies.mono {p : Program α} {R S : Option Nat → α → Prop} (h : p.Vies since R)
    (hR : ∀ b a, R b a → S b a) : p.Vies since S := by
  induction p generalizing since with
  | done a => exact hR _ _ h
  | ask r next ih => exact ⟨h.1, fun now x => ih x (h.2 now x)⟩

/-- **One program after another.** -/
theorem vies_bind (p : Program α) (f : α → Program β) (R : Option Nat → β → Prop) :
    (p >>= f).Vies since R ↔ p.Vies since fun b a => (f a).Vies b R := by
  show (p.bind f).Vies since R ↔ _
  induction p generalizing since with
  | done a => rfl
  | ask r next ih =>
    exact and_congr_right fun _ => forall_congr' fun now => forall_congr' fun x => ih x

theorem vies_request (r : Request) (R : Option Nat → Reply r → Prop) :
    (request r).Vies since R ↔
      (r.adopts = true → since ≠ none) ∧ ∀ now x, R (r.rivalSince now since x) x :=
  Iff.rfl

theorem vies_log (l : LogLine) (R : Option Nat → Unit → Prop) :
    (log l).Vies since R ↔ R since () :=
  ⟨fun h => h.2 0 (), fun h => ⟨nofun, fun _ _ => h⟩⟩

/-- A program that neither asks for the collector in use nor uses one stays what it is. -/
theorem Only.vies {p : Program α} (h : p.Only (·.stands)) :
    p.Vies since fun b _ => b = since := by
  induction p with
  | done a => rfl
  | ask r next ih =>
    refine ⟨fun hadopts => ?_, fun now x => ?_⟩
    · rw [Request.not_adopts_of_stands h.1] at hadopts
      cases hadopts
    · rw [Request.rivalSince_of_stands h.1 now since x]
      exact ih x (h.2 x)

end Program

namespace Locator

open Program

variable {since : Option Nat}

theorem firstHealthy_stands (cs : List String) : (firstHealthy cs).Only (·.stands) := by
  induction cs with
  | nil => exact only_pure _
  | cons c cs ih =>
    refine .bind (only_request rfl) fun ok => ?_
    split
    · exact only_pure _
    · exact ih

theorem adopt_vies (l : Locator) (via c : String) (h : since ≠ none) :
    (l.adopt via c).Vies since fun b _ => b = none := by
  unfold adopt
  dsimp only
  rw [vies_bind, vies_log, vies_bind, vies_request]
  refine ⟨fun _ => h, fun _ _ => ?_⟩
  rw [vies_bind, vies_request]
  exact ⟨nofun, fun _ _ => rfl⟩

/-- A rival that searches uses what it finds, and is none then. -/
theorem search_vies (l : Locator) (rs : List Resolver) (h : since ≠ none) :
    (l.search rs).Vies since fun b _ => b = none := by
  induction rs with
  | nil =>
    unfold search
    rw [vies_bind, vies_log, vies_bind, vies_request]
    exact ⟨fun _ => h, fun _ _ => rfl⟩
  | cons r rs ih =>
    have hcandidates : (r.candidates l.record).Only (·.stands) :=
      (r.candidates_only l.record).mono fun _ => Request.stands_of_queries
    unfold search
    rw [vies_bind]
    refine hcandidates.vies.mono fun b cs hb => ?_
    rw [hb, vies_bind]
    refine (firstHealthy_stands cs).vies.mono fun b' found hb' => ?_
    rw [hb']
    cases found with
    | none => exact ih
    | some c => exact l.adopt_vies r.name c h

/-- **A resolution** uses a collector only after it read that none is in use. -/
theorem resolve_vies (l : Locator) : l.resolve.Vies since fun b _ => b = none := by
  unfold resolve
  rw [vies_bind, vies_request]
  refine ⟨nofun, fun now found => ?_⟩
  cases found with
  | none => exact l.search_vies l.resolvers (Option.some_ne_none now)
  | some url => exact rfl

end Locator

namespace Client

open Program

variable {since : Option Nat}

theorem attempt_vies (c : Client) (body : Json) (number : Nat) :
    (c.attempt body number).Vies since fun _ _ => True := by
  unfold attempt
  rw [vies_bind]
  refine c.locator.resolve_vies.mono fun b base _ => ?_
  refine (Only.vies ?_).mono fun _ _ _ => trivial
  exact .bind (only_log rfl) fun _ => .bind (only_request rfl) fun _ =>
    .bind (only_log rfl) fun _ => only_pure _

theorem upload_vies (c : Client) (body : Json) (left : Nat) :
    (c.upload body left).Vies since fun _ _ => True := by
  induction left generalizing since with
  | zero => exact ⟨nofun, fun _ _ => trivial⟩
  | succ left ih =>
    unfold upload
    dsimp only
    rw [vies_bind]
    refine (c.attempt_vies body _).mono fun b reply _ => ?_
    split
    · trivial
    · unfold Locator.invalidate
      rw [vies_bind, vies_request]
      refine ⟨nofun, fun _ _ => ?_⟩
      split
      · rw [vies_bind, vies_log, vies_bind, vies_request]
        exact ⟨nofun, fun _ _ => ih⟩
      · exact ih

theorem submit_vies (c : Client) (r : Report) :
    (c.submit r).Vies since fun _ _ => True := by
  unfold submit
  rw [vies_bind, vies_request]
  refine ⟨nofun, fun _ _ => ?_⟩
  split
  · rw [vies_bind, vies_log]
    trivial
  · exact c.upload_vies _ maxAttempts

theorem heartbeat_vies (c : Client) (reason : String) :
    (c.heartbeat reason).Vies since fun _ _ => True := by
  unfold heartbeat
  rw [vies_bind]
  refine c.locator.resolve_vies.mono fun b base _ => ?_
  refine (Only.vies ?_).mono fun _ _ _ => trivial
  exact .bind (only_request rfl) fun _ => .bind (only_log rfl) fun _ => only_pure _

end Client

open Program in
/-- **Every call** uses a collector only as a rival. -/
theorem Locator.Call.program_vies (c : Call) (l : Locator) :
    (c.program l).Vies none fun _ _ => True := by
  cases c with
  | resolve =>
    unfold program
    rw [vies_bind]
    exact l.resolve_vies.mono fun _ _ _ => trivial
  | invalidate => exact ⟨nofun, fun _ _ => trivial⟩
  | upload i r =>
    unfold program
    rw [vies_bind]
    exact (Client.submit_vies ⟨i, l⟩ r).mono fun _ _ _ => trivial
  | heartbeat i reason =>
    unfold program
    rw [vies_bind]
    exact (Client.heartbeat_vies ⟨i, l⟩ reason).mono fun _ _ _ => trivial

/-! ## Rivals among callers -/

/-- Those who share a locator, each with the number of turns that were taken when it read that no
collector is in use, if it is a rival. -/
structure Rivalry where
  callers : List (Program (Option String) × Option Nat)
  turns : List Turn
  world : World

namespace Rivalry

/-- Nobody has called yet. -/
def begin (around : Surroundings) (files : FileTree) : Rivalry := ⟨[], [], .begin around files⟩

/-- One step, in which only who takes a turn may become a rival or cease to be one. -/
def step (l : Locator) (v : Rivalry) : Traffic.Step → Rivalry
  | .call c => { v with callers := v.callers ++ [(c.program l, none)] }
  | .turn i =>
    match v.callers[i]? with
    | some (.ask r next, since) =>
      ⟨v.callers.set i (next (v.world.answer r).1,
          r.rivalSince v.turns.length since (v.world.answer r).1),
        v.turns ++ [⟨v.world, r⟩], (v.world.answer r).2⟩
    | _ => v
  | .drop i => { v with callers := v.callers.eraseIdx i }
  | .pass ms => { v with world := { v.world with clock := v.world.clock + ms } }

/-- Steps, one after the other. -/
def play (l : Locator) (v : Rivalry) (steps : List Traffic.Step) : Rivalry := steps.foldl (step l) v

/-- The same without the rivals. -/
def traffic (v : Rivalry) : Traffic := ⟨v.callers.map (·.1), v.turns, v.world⟩

/-- How many rivals there are. -/
def rivals (v : Rivalry) : Nat := v.callers.countP (·.2.isSome)

variable {l : Locator} {v : Rivalry}

theorem step_traffic (l : Locator) (v : Rivalry) (s : Traffic.Step) :
    (v.step l s).traffic = v.traffic.step l s := by
  cases s with
  | call c => simp [step, traffic, Traffic.step]
  | turn i =>
    have hi : v.traffic.callers[i]? = v.callers[i]?.map (·.1) := List.getElem?_map ..
    rw [step, Traffic.step]
    cases hc : v.callers[i]? with
    | none =>
      rw [hc] at hi
      simp only [hi, Option.map_none]
    | some c =>
      obtain ⟨p, since⟩ := c
      rw [hc] at hi
      cases p with
      | done a => simp only [hi, Option.map_some]
      | ask r next =>
        simp only [hi, Option.map_some]
        simp [traffic, List.map_set]
  | drop i => simp [step, traffic, Traffic.step, List.eraseIdx_map]
  | pass ms => rfl

/-- **What is said of callers with rivals** is said of callers. -/
theorem play_traffic (l : Locator) (v : Rivalry) (steps : List Traffic.Step) :
    (v.play l steps).traffic = v.traffic.play l steps := by
  induction steps generalizing v with
  | nil => rfl
  | cons s steps ih =>
    rw [play, List.foldl_cons, ← play, ih, step_traffic]
    rfl

/-- The turn of that number read that no collector is in use. -/
def ReadNone (ts : List Turn) (n : Nat) : Prop :=
  ∃ u, ts[n]? = some u ∧ u.request = .endpoint ∧ u.world.endpoint = none

theorem ReadNone.append {ts : List Turn} {n : Nat} (h : ReadNone ts n) (us : List Turn) :
    ReadNone (ts ++ us) n := by
  obtain ⟨u, hu, hrest⟩ := h
  obtain ⟨hlt, -⟩ := List.getElem?_eq_some_iff.1 hu
  exact ⟨u, (List.getElem?_append_left hlt).trans hu, hrest⟩

/-- A reply makes a rival only of who reads that no collector is in use. -/
theorem readNone_of_rivalSince {ts : List Turn} {w : World} {r : Request} {since : Option Nat}
    (h : ∀ n, since = some n → ReadNone ts n) {n : Nat}
    (hn : r.rivalSince ts.length since (w.answer r).1 = some n) : ReadNone (ts ++ [⟨w, r⟩]) n := by
  cases r with
  | endpoint =>
    have hnone : w.endpoint = none := by
      cases he : w.endpoint with
      | none => rfl
      | some url =>
        have hanswer : (w.answer .endpoint).1 = some url := he
        rw [hanswer] at hn
        cases hn
    have hanswer : (w.answer .endpoint).1 = none := hnone
    rw [hanswer] at hn
    obtain rfl : ts.length = n := Option.some.inj hn
    exact ⟨_, List.getElem?_concat_length, rfl, hnone⟩
  | use url => cases hn
  | _ => exact (h n hn).append _

/-- **Every caller** will use a collector only as a rival, and is one by what it read. -/
structure Fair (v : Rivalry) : Prop where
  vies : ∀ c ∈ v.callers, c.1.Vies c.2 fun _ _ => True
  since : ∀ c ∈ v.callers, ∀ n, c.2 = some n → ReadNone v.turns n

theorem step_fair (h : v.Fair) (s : Traffic.Step) : (v.step l s).Fair := by
  cases s with
  | call c =>
    have hvies := c.program_vies l
    exact ⟨List.forall_mem_append.2 ⟨h.vies, List.forall_mem_singleton.2 hvies⟩,
      List.forall_mem_append.2 ⟨h.since, List.forall_mem_singleton.2 nofun⟩⟩
  | turn i =>
    unfold step
    dsimp only
    split
    · rename_i r next since hi
      have hmem := List.mem_of_getElem? hi
      refine ⟨fun c hc => ?_, fun c hc n hn => ?_⟩
      · rcases List.mem_or_eq_of_mem_set hc with hc | rfl
        · exact h.vies c hc
        · exact (h.vies _ hmem).2 v.turns.length _
      · rcases List.mem_or_eq_of_mem_set hc with hc | rfl
        · exact (h.since c hc n hn).append _
        · exact readNone_of_rivalSince (h.since _ hmem) hn
    · exact h
  | drop i =>
    exact ⟨fun c hc => h.vies c (List.mem_of_mem_eraseIdx hc),
      fun c hc => h.since c (List.mem_of_mem_eraseIdx hc)⟩
  | pass ms => exact ⟨h.vies, h.since⟩

theorem play_fair (h : v.Fair) (steps : List Traffic.Step) : (v.play l steps).Fair := by
  induction steps generalizing v with
  | nil => exact h
  | cons s steps ih => exact ih (step_fair h s)

/-! ## While a collector is in use -/

/-- How many of the turns use a collector. -/
def adoptions (ts : List Turn) : Nat := ts.countP (·.request.adopts)

/-- **What turns that give nothing up come to**, from a state in which a collector is in use: each
one that uses a collector is paid for with a rival, and no rival is new. -/
structure Spent (v : Rivalry) (ts : List Turn) (v' : Rivalry) : Prop where
  used : v'.world.endpoint ≠ none
  spent : adoptions ts + v'.rivals ≤ v.rivals
  kept : adoptions ts = 0 → v'.world.endpoint = v.world.endpoint
  old : ∀ c' ∈ v'.callers, c'.2 ≠ none → ∃ c ∈ v.callers, c.2 = c'.2

variable {ts us : List Turn} {v' v'' : Rivalry}

theorem Spent.refl (h : v.world.endpoint ≠ none) : v.Spent [] v :=
  ⟨h, Nat.le_of_eq (Nat.zero_add _), fun _ => rfl, fun c hc _ => ⟨c, hc, rfl⟩⟩

theorem Spent.trans (h : v.Spent ts v') (h' : v'.Spent us v'') : v.Spent (ts ++ us) v'' := by
  have hsum : adoptions (ts ++ us) = adoptions ts + adoptions us := List.countP_append
  refine ⟨h'.used, ?_, fun hnone => ?_, fun c hc hsince => ?_⟩
  · have hfirst := h.spent
    have hthen := h'.spent
    omega
  · have hfirst := h.kept (by omega)
    have hthen := h'.kept (by omega)
    exact hthen.trans hfirst
  · obtain ⟨c', hc', he'⟩ := h'.old c hc hsince
    obtain ⟨c₀, hc₀, he₀⟩ := h.old c' hc' (he' ▸ hsince)
    exact ⟨c₀, hc₀, he₀.trans he'⟩

/-- Only a request to use a collector, or to give it up, changes what is in use. -/
theorem answer_endpoint (w : World) {r : Request} (hadopts : r.adopts = false)
    (hgives : r.givesUp = false) : (w.answer r).2.endpoint = w.endpoint := by
  cases r with
  | use url => cases url <;> contradiction
  | _ => rfl

/-- While a collector is in use nobody becomes a rival, and who uses one is none then. -/
theorem rivalSince_of_used {w : World} (hused : w.endpoint ≠ none) (r : Request) (now : Nat)
    (since : Option Nat) : r.rivalSince now since (w.answer r).1 = none ∨
      r.adopts = false ∧ r.rivalSince now since (w.answer r).1 = since := by
  cases r with
  | endpoint =>
    refine .inl (if_neg fun hnone => hused ?_)
    exact Option.isNone_iff_eq_none.1 hnone
  | use url => exact .inl rfl
  | _ => exact .inr ⟨rfl, rfl⟩

/-- **One turn** of a caller that gives nothing up. -/
theorem turn_spent (hused : v.world.endpoint ≠ none) {i : Nat} {r : Request}
    {next : Reply r → Program (Option String)} {since : Option Nat}
    (hi : v.callers[i]? = some (.ask r next, since)) (hfair : r.adopts = true → since ≠ none)
    (hgives : r.givesUp = false) : v.Spent [⟨v.world, r⟩] (v.step l (.turn i)) := by
  obtain ⟨hlt, hget⟩ := List.getElem?_eq_some_iff.1 hi
  rw [step, hi]
  dsimp only
  have hmark := rivalSince_of_used hused r v.turns.length since
  generalize r.rivalSince v.turns.length since (v.world.answer r).1 = since' at hmark ⊢
  generalize next (v.world.answer r).1 = rest
  have hrivals : (v.callers.set i (rest, since')).countP (·.2.isSome) =
      v.rivals - (if since.isSome then 1 else 0) + if since'.isSome then 1 else 0 := by
    rw [List.countP_set hlt, hget]
    rfl
  have hpositive : since.isSome = true → 0 < v.rivals := fun hs =>
    List.countP_pos_iff.2 ⟨_, List.mem_of_getElem? hi, hs⟩
  have hadoptions : adoptions [⟨v.world, r⟩] = if r.adopts then 1 else 0 := by
    rw [adoptions, List.countP_singleton]
  refine ⟨?_, ?_, fun hnone => ?_, fun c hc hsince => ?_⟩
  · cases hr : r.adopts with
    | false =>
      dsimp only
      rw [answer_endpoint v.world hr hgives]
      exact hused
    | true =>
      cases r with
      | use url =>
        cases url with
        | none => cases hr
        | some url => exact Option.some_ne_none url
      | _ => cases hr
  · dsimp only [rivals] at hrivals hpositive ⊢
    rw [hadoptions, hrivals]
    rcases hmark with rfl | ⟨hr, rfl⟩
    · cases hr : r.adopts with
      | false => simp only [Option.isSome_none, Bool.false_eq_true, if_false]; omega
      | true =>
        have hs : since.isSome = true := Option.isSome_iff_ne_none.2 (hfair hr)
        have hless := hpositive hs
        simp only [hs, Option.isSome_none, Bool.false_eq_true, if_true, if_false]
        omega
    · rw [hr]
      cases hs : since'.isSome with
      | false => simp only [Bool.false_eq_true, if_false]; omega
      | true =>
        have hless := hpositive hs
        simp only [Bool.false_eq_true, if_true, if_false]
        omega
  · rw [hadoptions] at hnone
    refine answer_endpoint v.world ?_ hgives
    cases hr : r.adopts with
    | false => rfl
    | true =>
      rw [hr] at hnone
      cases hnone
  · rcases List.mem_or_eq_of_mem_set hc with hc | rfl
    · exact ⟨c, hc, rfl⟩
    · rcases hmark with rfl | ⟨-, rfl⟩
      · exact absurd rfl hsince
      · exact ⟨_, List.mem_of_getElem? hi, rfl⟩

/-- **Every step** takes at most one turn, and unless that gives the collector in use up, it comes
to what is said. -/
theorem step_spent (hfair : v.Fair) (hused : v.world.endpoint ≠ none) (s : Traffic.Step) :
    ∃ ts, (v.step l s).turns = v.turns ++ ts ∧
      ((∀ u ∈ ts, u.request.givesUp = false) → v.Spent ts (v.step l s)) := by
  have hsame : ∀ callers : List (Program (Option String) × Option Nat), ∀ w : World,
      callers.countP (·.2.isSome) ≤ v.rivals → w.endpoint = v.world.endpoint →
      (∀ c' ∈ callers, c'.2 ≠ none → ∃ c ∈ v.callers, c.2 = c'.2) →
      v.Spent [] ⟨callers, v.turns, w⟩ := by
    intro callers w hrivals he hold
    refine ⟨?_, ?_, fun _ => he, hold⟩
    · dsimp only
      rw [he]
      exact hused
    · exact Nat.le_trans (Nat.le_of_eq (Nat.zero_add _)) hrivals
  have hold : ∀ c' ∈ v.callers, c'.2 ≠ none → ∃ c ∈ v.callers, c.2 = c'.2 :=
    fun c hc _ => ⟨c, hc, rfl⟩
  cases s with
  | call c =>
    refine ⟨[], (List.append_nil _).symm, fun _ => hsame _ _ ?_ rfl fun c' hc' hsince => ?_⟩
    · rw [List.countP_append]
      exact Nat.le_of_eq (Nat.add_zero _)
    · rcases List.mem_append.1 hc' with hc' | hc'
      · exact hold c' hc' hsince
      · rw [List.mem_singleton.1 hc'] at hsince
        exact absurd rfl hsince
  | turn i =>
    cases hi : v.callers[i]? with
    | none =>
      have hstep : v.step l (.turn i) = v := by rw [step, hi]
      rw [hstep]
      exact ⟨[], (List.append_nil _).symm, fun _ => .refl hused⟩
    | some c =>
      obtain ⟨p, since⟩ := c
      cases p with
      | done a =>
        have hstep : v.step l (.turn i) = v := by rw [step, hi]
        rw [hstep]
        exact ⟨[], (List.append_nil _).symm, fun _ => .refl hused⟩
      | ask r next =>
        refine ⟨[⟨v.world, r⟩], by rw [step, hi], fun hgives => ?_⟩
        have hvies := hfair.vies _ (List.mem_of_getElem? hi)
        exact turn_spent hused hi hvies.1 (hgives _ (List.mem_singleton_self _))
  | drop i =>
    refine ⟨[], (List.append_nil _).symm, fun _ => hsame _ _ ?_ rfl fun c' hc' => ?_⟩
    · exact (List.eraseIdx_sublist ..).countP_le
    · exact hold c' (List.mem_of_mem_eraseIdx hc')
  | pass ms =>
    exact ⟨[], (List.append_nil _).symm, fun _ => hsame _ _ (Nat.le_refl _) rfl hold⟩

/-- The turns that are taken are the first ones of those taken later. -/
theorem play_turns (l : Locator) (v : Rivalry) (more : List Traffic.Step) :
    v.turns <+: (v.play l more).turns := by
  induction more generalizing v with
  | nil => exact List.prefix_refl _
  | cons s more ih =>
    refine List.IsPrefix.trans ?_ (ih (v.step l s))
    cases s with
    | turn i =>
      unfold step
      dsimp only
      split
      · exact List.prefix_append ..
      · exact List.prefix_refl _
    | _ => exact List.prefix_refl _

/-- **Along every run** the same holds of all its turns. -/
theorem play_spent (hfair : v.Fair) (hused : v.world.endpoint ≠ none) {more : List Traffic.Step}
    {ts : List Turn} (hts : (v.play l more).turns = v.turns ++ ts)
    (hgives : ∀ u ∈ ts, u.request.givesUp = false) : v.Spent ts (v.play l more) := by
  induction more generalizing v ts with
  | nil =>
    have hnil : ts = [] := List.append_right_eq_self.1 hts.symm
    rw [hnil]
    exact .refl hused
  | cons s more ih =>
    obtain ⟨first, hfirst, hspent⟩ := step_spent (l := l) hfair hused s
    obtain ⟨rest, hrest⟩ := play_turns l (v.step l s) more
    -- the turns are the one of the step, if any, and those of the rest
    have hsplit : ts = first ++ rest := by
      have hall : v.turns ++ ts = v.turns ++ (first ++ rest) := by
        rw [← hts, ← List.append_assoc, ← hfirst]
        exact hrest.symm
      exact List.append_cancel_left hall
    rw [hsplit] at hgives ⊢
    obtain ⟨hgives, hgives'⟩ := List.forall_mem_append.1 hgives
    have hstep := hspent hgives
    exact hstep.trans (ih (step_fair hfair s) hstep.used hrest.symm hgives')

/-- **A collector in use is replaced only by rivals.** From any state in which one is in use, and
until it is given up, whoever uses another one read that none was in use before that state; each of
these does so at most once; and if nobody does, the collector in use stays. -/
theorem play_replaced (l : Locator) (around : Surroundings) (files : FileTree)
    (steps more : List Traffic.Step) {ts : List Turn}
    (hused : ((begin around files).play l steps).world.endpoint ≠ none)
    (hts : (((begin around files).play l steps).play l more).turns =
      ((begin around files).play l steps).turns ++ ts)
    (hgives : ∀ u ∈ ts, u.request.givesUp = false) :
    let v := (begin around files).play l steps
    let v' := v.play l more
    (∀ r next since, (Program.ask r next, since) ∈ v'.callers → r.adopts = true →
      ∃ n, since = some n ∧ ReadNone v.turns n) ∧
    adoptions ts + v'.rivals ≤ v.rivals ∧
    (adoptions ts = 0 → v'.world.endpoint = v.world.endpoint) := by
  have hbegin : (begin around files).Fair := ⟨by simp [begin], by simp [begin]⟩
  have hfair : ((begin around files).play l steps).Fair := play_fair hbegin steps
  intro v v'
  have hspent : v.Spent ts v' := play_spent hfair hused hts hgives
  have hfair' : v'.Fair := play_fair hfair more
  refine ⟨fun r next since hmem hadopts => ?_, hspent.spent, hspent.kept⟩
  have hrival : since ≠ none := (hfair'.vies _ hmem).1 hadopts
  obtain ⟨n, hn⟩ := Option.ne_none_iff_exists'.1 hrival
  obtain ⟨c, hc, hsince⟩ := hspent.old _ hmem hrival
  exact ⟨n, hn, hfair.since c hc n (hsince.trans hn)⟩

/-! ## Two resolutions -/

/-- A locator with one candidate, and a fallback. -/
def oneCandidate : Locator := ⟨none, [.listed "fixed" fun _ => ["a"]], "b"⟩

/-- The candidate does not answer the first probe, and answers the second one. -/
def recovering : Surroundings :=
  { Rehearsal.surroundings (fun _ => (.printed "", 0)) (fun _ => (.printed "", 0))
      (Decoder.scripted []) with healthy := fun n _ => n = 1 }

/-- Two resolutions read that no collector is in use. The candidate does not answer the first one.
Then it answers the second one, which uses it. -/
def pairSteps : List Traffic.Step :=
  [.call .resolve, .call .resolve, .turn 0, .turn 1, .turn 0, .turn 0, .turn 1, .turn 1, .turn 1,
    .turn 1]

/-- The first resolution goes on to its end. -/
def lateSteps : List Traffic.Step := [.turn 0, .turn 0]

/-- The first resolution is the only rival, and uses the fallback. -/
theorem play_replaced_once :
    let v := (begin recovering ⟨[], []⟩).play oneCandidate pairSteps
    let v' := v.play oneCandidate lateSteps
    let ts := v'.turns.drop 8
    (v.world.endpoint ≠ none ∧ v'.turns = v.turns ++ ts ∧
      (∀ u ∈ ts, u.request.givesUp = false) ∧ adoptions ts = 1) ∧
    (∀ r next since, (Program.ask r next, since) ∈ v'.callers → r.adopts = true →
      ∃ n, since = some n ∧ ReadNone v.turns n) ∧
    adoptions ts + v'.rivals ≤ v.rivals ∧
    (adoptions ts = 0 → v'.world.endpoint = v.world.endpoint) := by
  intro v v' ts
  have hused : v.world.endpoint ≠ none := Option.some_ne_none _
  have hts : v'.turns = v.turns ++ ts := rfl
  have hgives : ∀ u ∈ ts, u.request.givesUp = false := by decide
  exact ⟨⟨hused, hts, hgives, rfl⟩,
    play_replaced oneCandidate recovering ⟨[], []⟩ pairSteps lateSteps hused hts hgives⟩

end Rivalry

namespace Traffic

open Rivalry in
/-- **A fallback replaces a collector that answered.** A resolution has used a candidate that
answered its probe while another one is still at it; the other one uses the fallback, and nobody
gave up anything. -/
theorem play_overtaken :
    let t := (begin recovering ⟨[], []⟩).play oneCandidate pairSteps
    let t' := t.play oneCandidate lateSteps
    (t.world.endpoint = some "a" ∧ t.world.Answered "a") ∧
      (∃ r next, t.callers[0]? = some (.ask r next)) ∧
      (∀ u ∈ t'.turns, u.request.givesUp = false) ∧
      t'.world.endpoint = some oneCandidate.fallback ∧ oneCandidate.fallback ≠ "a" := by
  intro t t'
  have hstrip : stripSlash "a" = "a" := by decide +kernel
  have hend : t.world.endpoint = some (stripSlash "a") := rfl
  have hprobed : t.world.deeds[1]? = some (.probed "a" true) := rfl
  refine ⟨⟨hend.trans (congrArg some hstrip), "a", hstrip.symm, List.mem_of_getElem? hprobed⟩,
    ⟨_, _, rfl⟩, ?_, rfl, ?_⟩
  · decide
  · decide

end Traffic

end DownloadTriage
