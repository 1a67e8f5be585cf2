import DownloadTriage.Proofs.Meanwhile
import DownloadTriage.Proofs.Requests
import Mathlib.Data.List.Forall2

/-!
# One resolution

What a locator does that looks for a collector by itself. Resolvers are asked one after the other, and
what one offers is probed before the next is asked; the first candidate in good health ends it all.

* `Locator.Found`, `Locator.InVain`: the two courses of a search, turn by turn.
* `Locator.search_alone`: a search takes one of them.
* `Locator.resolve_alone`: a resolution answers with the collector in use or searches, and its answer
  is in use from then on.
-/

namespace DownloadTriage

open Program

/-! ## One resolver -/

namespace Locator

/-- A resolver was asked. The turns are a whole course of the question, and touch neither the collector
in use nor a file. -/
structure Offers (record : Option Path) (r : Resolver) (ts : List Turn) (cs : List String) :
    Prop where
  course : (r.candidates record).Course ts cs
  queries : ∀ t ∈ ts, t.request.queries = true

/-- The candidate was probed at the turn, with that answer. -/
def Probed (healthy : Bool) (c : String) (t : Turn) : Prop :=
  t.request = .probe c ∧ t.deeds = [.probed c healthy]

/-- **A resolver to no avail**: each candidate that it offers was probed once, in their order, and is
not in good health. -/
def Barren (record : Option Path) (r : Resolver) (ts : List Turn) : Prop :=
  ∃ qs cs ps, ts = qs ++ ps ∧ Offers record r qs cs ∧ List.Forall₂ (Probed false) cs ps

/-- **A resolver that helps**: the candidates up to the first in good health were probed, and no other
one. -/
def Yields (record : Option Path) (r : Resolver) (c : String) (ts : List Turn) : Prop :=
  ∃ qs before after ps t, ts = qs ++ (ps ++ [t]) ∧ Offers record r qs (before ++ c :: after) ∧
    List.Forall₂ (Probed false) before ps ∧ Probed true c t

/-- What came of a resolver. -/
def Tried (record : Option Path) (r : Resolver) (ts : List Turn) : Option String → Prop
  | some c => Yields record r c ts
  | none => Barren record r ts

end Locator

theorem World.answer_of_queries {r : Request} (hr : r.queries = true) (w : World) :
    (w.answer r).2.endpoint = w.endpoint ∧ (w.answer r).2.files = w.files := by
  cases r <;> first | exact ⟨rfl, rfl⟩ | cases hr

open Meanwhile (alone)

variable {w : World}

theorem Resolver.candidates_alone (record : Option Path) (r : Resolver) :
    (r.candidates record).Under alone w fun ts w' cs =>
      Locator.Offers record r ts cs ∧ w'.endpoint = w.endpoint ∧ w'.files = w.files := by
  have honly := r.candidates_only record
  have hkeep : (r.candidates record).Under alone w fun _ w' _ =>
      w'.endpoint = w.endpoint ∧ w'.files = w.files := by
    refine honly.under_keeps (fun x _ v hv hx => ?_) (fun v r' hr hv => ?_) ⟨rfl, rfl⟩
    · exact ⟨hv.endpoint.trans hx.1, hv.files.trans hx.2⟩
    · obtain ⟨he, hf⟩ := v.answer_of_queries hr
      exact ⟨he.trans hv.1, hf.trans hv.2⟩
  refine (((under_course _).and honly.under).and hkeep).mono fun ts w' cs h => ?_
  exact ⟨⟨h.1.1, h.1.2⟩, h.2⟩

namespace Locator

/-- The probes of candidates: up to the first in good health, or all. -/
def Probes (cs : List String) (ts : List Turn) : Option String → Prop
  | some c => ∃ before after ps t, cs = before ++ c :: after ∧ ts = ps ++ [t] ∧
    List.Forall₂ (Probed false) before ps ∧ Probed true c t
  | none => List.Forall₂ (Probed false) cs ts

theorem Probes.cons {c : String} {cs : List String} {t : Turn} {ts : List Turn}
    {found : Option String} (ht : Probed false c t) (h : Probes cs ts found) :
    Probes (c :: cs) (t :: ts) found := by
  cases found with
  | none => exact List.Forall₂.cons ht h
  | some d =>
    obtain ⟨before, after, ps, u, rfl, rfl, hps, hu⟩ := h
    exact ⟨c :: before, after, t :: ps, u, rfl, rfl, .cons ht hps, hu⟩

theorem firstHealthy_alone (cs : List String) :
    (firstHealthy cs).Under alone w fun ts w' found =>
      Probes cs ts found ∧ w'.endpoint = w.endpoint ∧ w'.files = w.files := by
  induction cs generalizing w with
  | nil => exact ⟨List.Forall₂.nil, rfl, rfl⟩
  | cons c cs ih =>
    unfold firstHealthy
    rw [under_bind, under_request]
    intro v hv
    have hp : ∀ ok, (v.answer (.probe c)).1 = ok → Probed ok c ⟨v, .probe c⟩ := by
      rintro ok rfl
      exact ⟨rfl, by rw [Turn.deeds_eq]; rfl⟩
    cases hok : (v.answer (.probe c)).1 with
    | true => exact ⟨⟨[], cs, [], _, rfl, rfl, .nil, hp _ hok⟩, hv.endpoint, hv.files⟩
    | false =>
      refine ih.mono fun ts w' found h => ⟨h.1.cons (hp _ hok), ?_, ?_⟩
      · exact h.2.1.trans hv.endpoint
      · exact h.2.2.trans hv.files

/-- **One resolver** is asked, and what it offers is probed. -/
theorem try_alone (record : Option Path) (r : Resolver) :
    (r.candidates record >>= firstHealthy).Under alone w fun ts w' found =>
      Tried record r ts found ∧ w'.endpoint = w.endpoint ∧ w'.files = w.files := by
  rw [under_bind]
  refine (r.candidates_alone record).mono fun qs v cs hv => ?_
  refine (firstHealthy_alone cs).mono fun ps w' found h => ?_
  refine ⟨?_, h.2.1.trans hv.2.1, h.2.2.trans hv.2.2⟩
  cases found with
  | none => exact ⟨qs, cs, ps, rfl, hv.1, h.1⟩
  | some c =>
    obtain ⟨before, after, ps, t, rfl, rfl, hps, ht⟩ := h.1
    exact ⟨qs, before, after, ps, t, rfl, hv.1, hps, ht⟩

/-! ## A search -/

/-- **A candidate was found**: the resolvers before the one that offers it were to no avail, nobody
was asked and nothing was probed after it, and it is used without the slash at its end, which is how
its health was asked for, and recorded. -/
def Found (l : Locator) (rs : List Resolver) (ts : List Turn) (url : String) : Prop :=
  ∃ before r after c tss us v₁ v₂ v₃, rs = before ++ r :: after ∧
    List.Forall₂ (Barren l.record) before tss ∧ Yields l.record r c us ∧
    url = stripSlash c ∧ healthUrl c = url ++ "/api/health" ∧
    ts = tss.flatten ++ (us ++
      [⟨v₁, .log (.info ("[Server] Selected endpoint " ++ url ++ " (via " ++ r.name ++ ")"))⟩,
        ⟨v₂, .use (some url)⟩, ⟨v₃, .record l.record url⟩])

/-- **Nothing was found**: all resolvers were to no avail, and the fallback is used. -/
def InVain (l : Locator) (rs : List Resolver) (ts : List Turn) : Prop :=
  ∃ tss v₁ v₂, List.Forall₂ (Barren l.record) rs tss ∧
    ts = tss.flatten ++
      [⟨v₁, .log (.warn ("[Server] No collector answered, falling back to " ++ l.fallback))⟩,
        ⟨v₂, .use (some l.fallback)⟩]

/-- What a search comes to, and what becomes of the files. -/
def Searched (l : Locator) (rs : List Resolver) (files : FileTree) (ts : List Turn) (w' : World)
    (url : String) : Prop :=
  (Found l rs ts url ∧ w'.files = (LastKnown.save files url l.record).1) ∨
    (InVain l rs ts ∧ url = l.fallback ∧ w'.files = files)

variable {l : Locator} {rs : List Resolver}

theorem Searched.cons {r : Resolver} {files : FileTree} {us ts : List Turn} {w' : World}
    {url : String} (hr : Barren l.record r us) (h : Searched l rs files ts w' url) :
    Searched l (r :: rs) files (us ++ ts) w' url := by
  rcases h with ⟨⟨before, r', after, c, tss, vs, v₁, v₂, v₃, rfl, hb, hy, hu, hh, rfl⟩, hf⟩ |
    ⟨⟨tss, v₁, v₂, hb, rfl⟩, hu, hf⟩
  · refine .inl ⟨⟨r :: before, r', after, c, us :: tss, vs, v₁, v₂, v₃, rfl, .cons hr hb, hy, hu, hh,
      ?_⟩, hf⟩
    rw [List.flatten_cons, List.append_assoc]
  · refine .inr ⟨⟨us :: tss, v₁, v₂, .cons hr hb, ?_⟩, hu, hf⟩
    rw [List.flatten_cons, List.append_assoc]

/-- A candidate that was found is used and recorded. -/
theorem adopt_alone (l : Locator) (via c : String) :
    (l.adopt via c).Under alone w fun ts w' url =>
      w'.endpoint = some url ∧ url = stripSlash c ∧
        w'.files = (LastKnown.save w.files url l.record).1 ∧ ∃ v₁ v₂ v₃, ts =
          [⟨v₁, .log (.info ("[Server] Selected endpoint " ++ url ++ " (via " ++ via ++ ")"))⟩,
            ⟨v₂, .use (some url)⟩, ⟨v₃, .record l.record url⟩] := by
  unfold adopt
  rw [under_bind, under_log]
  intro v₁ h₁
  rw [under_bind, under_request]
  intro v₂ h₂
  rw [under_bind, under_request]
  intro v₃ h₃
  refine ⟨h₃.endpoint, rfl, ?_, v₁, v₂, v₃, rfl⟩
  have hf : v₃.files = w.files := h₃.files.trans (h₂.files.trans h₁.files)
  rw [← hf]
  rfl

/-- **A search**: the answer is in use afterwards. -/
theorem search_alone (l : Locator) (rs : List Resolver) :
    (l.search rs).Under alone w fun ts w' url =>
      w'.endpoint = some url ∧ Searched l rs w.files ts w' url := by
  induction rs generalizing w with
  | nil =>
    unfold search
    rw [under_bind, under_log]
    intro v₁ h₁
    rw [under_bind, under_request]
    intro v₂ h₂
    exact ⟨rfl, .inr ⟨⟨[], v₁, v₂, .nil, rfl⟩, rfl, h₂.files.trans h₁.files⟩⟩
  | cons r rs ih =>
    have hsplit : l.search (r :: rs) = (r.candidates l.record >>= firstHealthy) >>= fun
        | some c => l.adopt r.name c
        | none => l.search rs := by
      rw [search]
      exact (bind_assoc _ _ _).symm
    rw [hsplit, under_bind]
    refine (try_alone l.record r).mono ?_
    rintro us v (_ | c) ⟨ht, he, hf⟩
    · refine ih.mono fun ts w' url h => ⟨h.1, ?_⟩
      rw [← hf]
      exact h.2.cons ht
    · refine (l.adopt_alone r.name c).mono fun ts w' url h => ⟨h.1, .inl ⟨?_, ?_⟩⟩
      · obtain ⟨-, rfl, -, v₁, v₂, v₃, rfl⟩ := h
        exact ⟨[], r, rs, c, [], us, v₁, v₂, v₃, rfl, .nil, ht, rfl, rfl, rfl⟩
      · rw [← hf]
        exact h.2.2.1

/-! ## A resolution -/

/-- What a resolution comes to: with a collector in use nothing else is done. -/
def Resolved (l : Locator) (w : World) (ts : List Turn) (w' : World) (url : String) : Prop :=
  match w.endpoint with
  | some u => url = u ∧ ts = [⟨w, .endpoint⟩] ∧ w' = w
  | none => ∃ us, ts = ⟨w, .endpoint⟩ :: us ∧ Searched l l.resolvers w.files us w' url

theorem Resolved.starts {l : Locator} {ts : List Turn} {w' : World} {url : String}
    (h : Resolved l w ts w' url) : ∃ us, ts = ⟨w, .endpoint⟩ :: us := by
  unfold Resolved at h
  split at h
  · exact ⟨[], h.2.1⟩
  · obtain ⟨us, hus, -⟩ := h
    exact ⟨us, hus⟩

/-- A resolution is what it comes to, and its answer is in use afterwards. -/
theorem resolved_alone (l : Locator) (w : World) :
    l.resolve.Under alone w fun ts w' url => w'.endpoint = some url ∧ Resolved l w ts w' url := by
  unfold resolve
  rw [under_bind, under_request]
  intro v hv
  obtain rfl := hv.eq fun ms h => h
  show Under _ (match v.endpoint with | some u => pure u | none => l.search l.resolvers) _ _
  unfold Resolved
  cases he : v.endpoint with
  | some u => exact ⟨he, rfl, rfl, rfl⟩
  | none => exact (l.search_alone l.resolvers).mono fun ts w' url h => ⟨h.1, ts, rfl, h.2⟩

/-- Several resolutions, one after the other. -/
def resolutions (l : Locator) : Nat → Program (List String)
  | 0 => pure []
  | n + 1 => do
    let url ← l.resolve
    let urls ← l.resolutions n
    pure (url :: urls)

end Locator

/-- Anything may happen, but the collector in use is left as it is. -/
def Meanwhile.holding : Meanwhile := fun w _ v => v.endpoint = w.endpoint

namespace Locator

variable {l : Locator}

theorem resolutions_holding {url : String} (hw : w.endpoint = some url) (n : Nat) :
    (l.resolutions n).Under Meanwhile.holding w fun _ w' urls =>
      urls = List.replicate n url ∧ w'.endpoint = some url := by
  induction n generalizing w with
  | zero => exact ⟨rfl, hw⟩
  | succ n ih =>
    unfold resolutions resolve
    rw [under_bind, under_bind, under_request]
    intro v hv
    have he : v.endpoint = some url := Eq.trans hv hw
    show Under _ (match v.endpoint with | some u => pure u | none => l.search l.resolvers) _ _
    rw [he, under_pure, under_bind]
    refine (ih he).mono ?_
    rintro ts w' _ ⟨rfl, h⟩
    exact ⟨rfl, h⟩

/-- **A resolution by itself** answers with the collector in use and does nothing else, or searches;
its answer is in use afterwards, and is the answer of all later resolutions, whatever happens, until
the collector in use is changed. -/
theorem resolve_alone (l : Locator) (w : World) :
    l.resolve.Under alone w fun ts w' url =>
      w'.endpoint = some url ∧
      (∀ u, w.endpoint = some u → url = u ∧ ts = [⟨w, .endpoint⟩] ∧ w' = w) ∧
      (w.endpoint = none → ∃ us, ts = ⟨w, .endpoint⟩ :: us ∧
        ((Found l l.resolvers us url ∧ w'.files = (LastKnown.save w.files url l.record).1) ∨
          (InVain l l.resolvers us ∧ url = l.fallback ∧ w'.files = w.files))) ∧
      ∀ n, (l.resolutions n).Under Meanwhile.holding w' fun _ v urls =>
        urls = List.replicate n url ∧ v.endpoint = some url := by
  refine (l.resolved_alone w).mono fun ts w' url h => ?_
  obtain ⟨he, hr⟩ := h
  refine ⟨he, fun u hu => ?_, fun hn => ?_, fun n => resolutions_holding he n⟩
  · rw [Resolved, hu] at hr
    exact hr
  · rw [Resolved, hn] at hr
    exact hr

end Locator

end DownloadTriage
