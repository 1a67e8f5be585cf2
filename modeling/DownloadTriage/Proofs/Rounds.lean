import DownloadTriage.Collector.Locator
import DownloadTriage.Proofs.Meanwhile

/-!
# Rounds of discovery

A resolver that asks the network keeps the last round that found servers, for a time that counts from
the round's end. Its calls come one after the other, after pauses of any length; a round takes as long
as it likes and finds what it likes.

Which round a call has to go by is said by the rounds before it alone (`latest`): the last one that
found servers. A call reuses it as long as it is fresh, and starts a round of its own otherwise.

* `Resolver.ask_alone`: one call, and the round that is kept after it.
* `Resolver.asks_alone`: every call of a sequence.
-/

namespace DownloadTriage

open Program

/-! ## Rounds and calls -/

/-- A round of discovery: when it was over, and what it found. -/
structure Round where
  ended : Nat
  found : List String

namespace Round

/-- The rounds among turns, in order. -/
def among (ts : List Turn) : List Round :=
  ts.filterMap fun t =>
    match t.request with
    | .discover => some ⟨t.world.clock, (t.world.answer .discover).1⟩
    | _ => none

/-- The last round that found servers. -/
def latest (rs : List Round) : Option Round := (rs.filter (·.found ≠ [])).getLast?

/-- The round as it is kept. -/
def keep (ttlMs : Nat) (r : Round) : KeptRound := ⟨r.found, r.ended + ttlMs⟩

@[simp] theorem among_append (ts us : List Turn) : among (ts ++ us) = among ts ++ among us :=
  List.filterMap_append

/-- A round that found nothing is not gone by. -/
theorem latest_append_empty (rs : List Round) {r : Round} (h : r.found = []) :
    latest (rs ++ [r]) = latest rs := by
  simp [latest, h]

theorem latest_append_found (rs : List Round) {r : Round} (h : r.found ≠ []) :
    latest (rs ++ [r]) = some r := by
  simp [latest, h]

theorem found_of_latest {rs : List Round} {r : Round} (h : latest rs = some r) :
    r ∈ rs ∧ r.found ≠ [] := by
  simpa using List.mem_of_getLast? h

end Round

/-- A call of the resolver: the pause before it, its turns, and its answer. -/
structure Inquiry where
  pause : Turn
  turns : List Turn
  answer : List String

namespace Inquiry

/-- When the call was made: when the pause was over. -/
def time (c : Inquiry) : Nat := c.pause.world.clock

/-- The turns of the pause and of the call. -/
def course (c : Inquiry) : List Turn := c.pause :: c.turns

/-- The rounds that the call started. -/
def rounds (c : Inquiry) : List Round := Round.among c.turns

/-- The call reuses a round: nobody is asked, and no time passes. -/
structure Reuses (c : Inquiry) (r : Round) : Prop where
  none : c.rounds = []
  answer : c.answer = r.found
  time : ∀ t ∈ c.turns, t.world.clock = c.time

/-- The call starts a round of its own, at once and only one, and answers with what it finds. -/
def Discovers (c : Inquiry) : Prop :=
  ∃ us v vs, c.turns = us ++ ⟨v, .discover⟩ :: vs ∧ us ≠ [] ∧ (∀ t ∈ us, t.world.clock = c.time) ∧
    c.rounds = [⟨v.clock, c.answer⟩]

/-- **What a call goes by**: the round, if it is fresh, and a round of its own otherwise. -/
def GoesBy (ttlMs : Nat) : Option Round → Inquiry → Prop
  | none, c => c.Discovers
  | some r, c => if c.time < r.ended + ttlMs then c.Reuses r else c.Discovers

variable {ttlMs : Nat} {c : Inquiry} {r : Round}

theorem goesBy_of_fresh (hr : c.time < r.ended + ttlMs) (h : c.Reuses r) :
    GoesBy ttlMs (some r) c := by
  simpa only [GoesBy, if_pos hr] using h

theorem goesBy_of_stale (hr : ¬ c.time < r.ended + ttlMs) (h : c.Discovers) :
    GoesBy ttlMs (some r) c := by
  simpa only [GoesBy, if_neg hr] using h

/-- The two courses of a call. -/
theorem GoesBy.cases {last : Option Round} (h : c.GoesBy ttlMs last) :
    (∃ r, last = some r ∧ c.time < r.ended + ttlMs ∧ c.Reuses r) ∨
      (∀ r, last = some r → r.ended + ttlMs ≤ c.time) ∧ c.Discovers := by
  cases last with
  | none => exact .inr ⟨by simp, h⟩
  | some r =>
    by_cases hr : c.time < r.ended + ttlMs
    · exact .inl ⟨r, rfl, hr, by simpa only [GoesBy, if_pos hr] using h⟩
    · refine .inr ⟨?_, by simpa only [GoesBy, if_neg hr] using h⟩
      rintro _ ⟨⟩
      exact Nat.not_lt.1 hr

theorem Discovers.rounds (h : c.Discovers) : ∃ n, c.rounds = [⟨n, c.answer⟩] := by
  obtain ⟨_, v, _, _, _, _, hr⟩ := h
  exact ⟨v.clock, hr⟩

theorem Reuses.not_discovers (h : c.Reuses r) : ¬ c.Discovers := fun hd => by
  obtain ⟨n, hn⟩ := hd.rounds
  exact absurd (h.none.symm.trans hn) (by simp)

end Inquiry

/-- The world of a resolver that was never asked. -/
def World.unasked (w : World) (slot : Nat) : World :=
  { w with kept := w.kept.filter (·.1 ≠ slot) }

theorem World.lookup_unasked (w : World) (slot : Nat) : (w.unasked slot).kept.lookup slot = none := by
  refine List.lookup_eq_none_iff.2 fun round hround => ?_
  exact bne_iff_ne.2 fun he => of_decide_eq_true (List.mem_filter.1 hround).2 he.symm

namespace Resolver

open Meanwhile (alone)

/-- Calls of a resolver, each after a pause. -/
def asks (slot ttlMs : Nat) : List Nat → Program (List (List String))
  | [] => pure []
  | ms :: pauses => do
    request (.sleep ms)
    let servers ← ask slot ttlMs
    let answers ← asks slot ttlMs pauses
    pure (servers :: answers)

variable {slot ttlMs : Nat} {w : World}

/-- **A new round** starts at once. It is kept if it found servers. -/
theorem newRound_alone (slot ttlMs : Nat) (w : World) :
    (newRound slot ttlMs).Under alone w fun ts w' servers =>
      ∃ u v vs, ts = u :: ⟨v, .discover⟩ :: vs ∧ u.world.clock = w.clock ∧
        Round.among ts = [⟨v.clock, servers⟩] ∧
        w'.kept.lookup slot =
          if servers = [] then w.kept.lookup slot
          else some (Round.keep ttlMs ⟨v.clock, servers⟩) := by
  unfold newRound
  rw [under_bind, under_log]
  intro v₁ h₁
  obtain rfl := h₁.eq fun ms h => h
  rw [under_bind, under_request]
  rintro v₂ ⟨ms, -, hv⟩
  have hkept : (v₂.answer .discover).2.kept = v₁.kept := by rw [hv]; rfl
  have hone : Round.among [⟨v₂, .discover⟩] = [⟨v₂.clock, (v₂.answer .discover).1⟩] := rfl
  generalize hs : (v₂.answer .discover).1 = servers at hone
  by_cases he : servers = []
  · simp only [if_pos he]
    rw [under_bind, under_log]
    intro v₃ h₃
    obtain rfl := h₃.eq fun ms h => h
    rw [under_pure]
    refine ⟨_, v₂, _, rfl, rfl, hone, ?_⟩
    rw [if_pos he]
    exact congrArg (List.lookup slot) hkept
  · simp only [if_neg he]
    rw [under_bind, under_log]
    intro v₃ h₃
    obtain rfl := h₃.eq fun ms h => h
    rw [under_bind, under_request]
    intro v₄ h₄
    obtain rfl := h₄.eq fun ms h => h
    rw [under_bind, under_request]
    intro v₅ h₅
    obtain rfl := h₅.eq fun ms h => h
    rw [under_pure]
    refine ⟨_, v₂, _, rfl, rfl, hone, ?_⟩
    rw [if_neg he]
    exact List.lookup_cons_self

/-- The slot holds the last round that found servers. -/
def Keeps (slot ttlMs : Nat) (w : World) (rs : List Round) : Prop :=
  w.kept.lookup slot = (Round.latest rs).map (Round.keep ttlMs)

/-- A call that starts a new round, after turns that ask nobody and take no time. -/
theorem newRound_discovers {rs : List Round} (hw : Keeps slot ttlMs w rs) {pause : Turn}
    (hp : pause.world.clock = w.clock) (us : List Turn)
    (hus : ∀ t ∈ us, t.world = w) (hnone : Round.among us = []) :
    (newRound slot ttlMs).Under alone w fun ts w' servers =>
      Inquiry.Discovers ⟨pause, us ++ ts, servers⟩ ∧
        Keeps slot ttlMs w' (rs ++ Round.among (us ++ ts)) := by
  refine (newRound_alone slot ttlMs w).mono ?_
  rintro ts w' servers ⟨u, v, vs, rfl, hu, hamong, hkept⟩
  have hrounds : Round.among (us ++ u :: ⟨v, .discover⟩ :: vs) = [⟨v.clock, servers⟩] := by
    rw [Round.among_append, hnone, hamong, List.nil_append]
  constructor
  · refine ⟨us ++ [u], v, vs, by simp, by simp, fun t ht => ?_, hrounds⟩
    rcases List.mem_append.1 ht with ht | ht
    · exact (congrArg World.clock (hus t ht)).trans hp.symm
    · rw [List.mem_singleton.1 ht]
      exact hu.trans hp.symm
  · unfold Keeps
    rw [hrounds, hkept, hw]
    split
    · rename_i he
      rw [Round.latest_append_empty rs he]
    · rename_i he
      rw [Round.latest_append_found rs he]
      rfl

/-- **One call** goes by the last round that found servers. The round that is kept after it is the last
one again. -/
theorem ask_alone {rs : List Round} (hw : Keeps slot ttlMs w rs) (pause : Turn)
    (hp : pause.world.clock = w.clock) :
    (ask slot ttlMs).Under alone w fun ts w' servers =>
      Inquiry.GoesBy ttlMs (Round.latest rs) ⟨pause, ts, servers⟩ ∧
        Keeps slot ttlMs w' (rs ++ Round.among ts) := by
  unfold ask
  rw [under_bind, under_request]
  intro v hv
  obtain rfl := hv.eq fun ms h => h
  have hkept : (v.answer (.keptRound slot)).1 =
      (Round.latest rs).map (Round.keep ttlMs) := hw
  rw [hkept]
  cases hl : Round.latest rs with
  | none => exact newRound_discovers hw hp [⟨v, .keptRound slot⟩] (by simp) rfl
  | some r =>
    show Under _ (request .now >>= _) _ _
    rw [under_bind, under_request]
    intro v₂ h₂
    obtain rfl : v₂ = v := h₂.eq fun ms h => h
    have hfound : r.found ≠ [] := (Round.found_of_latest hl).2
    by_cases hfresh : pause.world.clock < r.ended + ttlMs
    · have hoffers : KeptRound.offers (r.keep ttlMs) (v₂.answer .now).1 = some r.found := by
        have hexpires : ¬ r.ended + ttlMs ≤ v₂.clock := by omega
        exact if_neg (not_or.2 ⟨hfound, hexpires⟩)
      simp only [hoffers]
      rw [under_bind, under_log]
      intro v₃ h₃
      obtain rfl : v₃ = v₂ := h₃.eq fun ms h => h
      rw [under_pure]
      constructor
      · refine Inquiry.goesBy_of_fresh hfresh ⟨rfl, rfl, ?_⟩
        show ∀ t ∈ [_, _, _], _ = pause.world.clock
        simp [hp]
      · show Keeps slot ttlMs _ (rs ++ [])
        rw [List.append_nil]
        exact hw
    · have hoffers : KeptRound.offers (r.keep ttlMs) (v₂.answer .now).1 = none := by
        have hexpires : r.ended + ttlMs ≤ v₂.clock := by omega
        exact if_pos (.inr hexpires)
      simp only [hoffers]
      refine (newRound_discovers hw hp [⟨v₂, .keptRound slot⟩, ⟨v₂, .now⟩] (by simp)
        rfl).mono fun ts w' servers h => ⟨?_, h.2⟩
      exact Inquiry.goesBy_of_stale hfresh h.1

/-- **A sequence of calls**: each goes by the last round that found servers before it. -/
theorem asks_goesBy {rs : List Round} (hw : Keeps slot ttlMs w rs) (pauses : List Nat) :
    (asks slot ttlMs pauses).Under alone w fun ts _ answers =>
      ∃ calls : List Inquiry, ts = calls.flatMap Inquiry.course ∧ answers = calls.map Inquiry.answer ∧
        calls.map (·.pause.request) = pauses.map .sleep ∧
        ∀ before c after, calls = before ++ c :: after →
          c.GoesBy ttlMs (Round.latest (rs ++ before.flatMap Inquiry.rounds)) := by
  induction pauses generalizing w rs with
  | nil =>
    refine ⟨[], rfl, rfl, rfl, fun before c after h => ?_⟩
    simp at h
  | cons ms pauses ih =>
    unfold asks
    rw [under_bind, under_request]
    intro v hv
    have hv : Keeps slot ttlMs (v.answer (.sleep ms)).2 rs := by
      obtain ⟨_, -, rfl⟩ := hv
      exact hw
    rw [under_bind]
    refine (ask_alone hv ⟨v, .sleep ms⟩ rfl).mono ?_
    rintro ts w' servers ⟨hone, hw'⟩
    rw [under_bind]
    refine (ih hw').mono ?_
    rintro us w'' answers ⟨calls, rfl, rfl, hpauses, hall⟩
    refine ⟨⟨⟨v, .sleep ms⟩, ts, servers⟩ :: calls, ?_, rfl, ?_, fun before c after h => ?_⟩
    · simp [Inquiry.course]
    · rw [List.map_cons, hpauses]
      rfl
    · cases before with
      | nil =>
        obtain ⟨rfl, rfl⟩ := List.cons.inj h
        simpa using hone
      | cons b before =>
        obtain ⟨rfl, rfl⟩ := List.cons.inj h
        have := hall before c after rfl
        rw [List.append_assoc] at this
        exact this

/-- **Every call of a resolver** reuses the last round that found servers if there is one and the call
is made before its time is up; otherwise it starts one round at once and answers with what that finds.
So a round starts when the last one that found servers is out of time, one that found nothing is
never reused and changes nothing for the calls after it, and an answer is always that of one round. -/
theorem asks_alone (slot ttlMs : Nat) (pauses : List Nat) (w : World) :
    (asks slot ttlMs pauses).Under alone (w.unasked slot) fun ts _ answers =>
      ∃ calls : List Inquiry, ts = calls.flatMap Inquiry.course ∧ answers = calls.map Inquiry.answer ∧
        calls.map (·.pause.request) = pauses.map .sleep ∧
        ∀ before c after, calls = before ++ c :: after →
          let earlier := before.flatMap Inquiry.rounds
          let fresh := ∃ r, Round.latest earlier = some r ∧ c.time < r.ended + ttlMs
          ((∃ r, Round.latest earlier = some r ∧ c.Reuses r) ↔ fresh) ∧ (c.Discovers ↔ ¬ fresh) ∧
            (c.Discovers → ∀ r, Round.latest earlier = some r → r.ended + ttlMs ≤ c.time) ∧
            (c.rounds = [] → c.answer ≠ []) ∧
            (c.answer = [] → Round.latest (earlier ++ c.rounds) = Round.latest earlier) ∧
            ∃ r ∈ earlier ++ c.rounds, c.answer = r.found := by
  have hw : Keeps slot ttlMs (w.unasked slot) [] := w.lookup_unasked slot
  refine (asks_goesBy hw pauses).mono ?_
  rintro ts w' answers ⟨calls, hts, hanswers, hpauses, hall⟩
  refine ⟨calls, hts, hanswers, hpauses, fun before c after hc => ?_⟩
  intro earlier fresh
  rcases (hall before c after hc).cases with ⟨r, hr, htime, hreuse⟩ | ⟨hstale, hdisc⟩
  · have hfresh : fresh := ⟨r, hr, htime⟩
    have hnone : ¬ c.Discovers := hreuse.not_discovers
    obtain ⟨hmem, hfound⟩ := Round.found_of_latest hr
    refine ⟨⟨fun _ => hfresh, fun _ => ⟨r, hr, hreuse⟩⟩, ⟨fun h => absurd h hnone, fun h => absurd hfresh h⟩,
      fun h => absurd h hnone, fun _ => hreuse.answer ▸ hfound,
      fun h => absurd (hreuse.answer ▸ h) hfound, r, List.mem_append_left _ hmem, hreuse.answer⟩
  · have hnot : ¬ fresh := by
      rintro ⟨r, hr, htime⟩
      exact absurd htime (Nat.not_lt.2 (hstale r hr))
    obtain ⟨n, hn⟩ := hdisc.rounds
    refine ⟨⟨?_, fun h => absurd h hnot⟩, ⟨fun _ => hnot, fun _ => hdisc⟩, fun _ => hstale, ?_, ?_, ?_⟩
    · rintro ⟨r, -, hreuse⟩
      exact absurd hdisc hreuse.not_discovers
    · intro hnone
      exact absurd (hnone.symm.trans hn) (by simp)
    · intro he
      rw [hn]
      exact Round.latest_append_empty _ he
    · rw [hn]
      exact ⟨_, List.mem_append_right _ (List.mem_singleton_self _), rfl⟩

end Resolver

end DownloadTriage
