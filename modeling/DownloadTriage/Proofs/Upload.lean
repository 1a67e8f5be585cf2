import DownloadTriage.Proofs.Resolution
import Mathlib.Algebra.Group.Nat.Defs
import Mathlib.Data.List.Chain

/-!
# One upload

What a client does that uploads a report by itself: attempt after attempt, until one is settled or none
is left. Each attempt is kept with the turns in which it looked for a collector, the collector it came
to, and the world that answered its post.

* `Client.attempt_alone`: one attempt.
* `Client.Uploaded`: what the attempts that are left come to; `Uploaded.cons` puts a failed one in
  front.
* `Client.submit_alone`: an upload.
-/

namespace DownloadTriage

open Program
open Meanwhile (alone)

/-- After such a reply another attempt is made: there is no status, or it neither says yes nor
refuses. -/
def PostReply.Retryable (reply : PostReply) : Prop :=
  ∀ status, reply = .ok status →
    ¬ (200 ≤ status ∧ status < 300) ∧ ¬ (400 ≤ status ∧ status < 500)

namespace Client

theorem settled?_eq_none {n : Nat} {reply : PostReply} :
    settled? n reply = none ↔ PostReply.Retryable reply := by
  cases reply with
  | error e => simp [settled?, PostReply.Retryable]
  | ok status =>
    simp only [settled?, PostReply.Retryable, isSuccess, isRefusal]
    grind

theorem settled?_eq_some {n : Nat} {reply : PostReply} {outcome : UploadOutcome} :
    settled? n reply = some outcome ↔ ∃ status, reply = .ok status ∧
      ((200 ≤ status ∧ status < 300 ∧ outcome = .delivered n) ∨
        (400 ≤ status ∧ status < 500 ∧ outcome = .rejected status n)) := by
  cases reply with
  | error e => simp [settled?]
  | ok status =>
    simp only [settled?, isSuccess, isRefusal]
    grind

/-! ## One attempt -/

/-- An attempt as it went. -/
structure Attempt where
  number : Nat
  /-- The turns in which a collector was looked for. -/
  resolution : List Turn
  /-- The collector that they came to. -/
  base : String
  post : Post
  /-- The world that answered the post. -/
  answered : World

namespace Attempt

/-- The reply to the post. -/
def reply (a : Attempt) : PostReply := (a.answered.answer (.post a.post)).1

/-- The attempt began to look for a collector at a time. -/
def StartsAt (a : Attempt) (time : Nat) : Prop :=
  ∃ v ts, a.resolution = ⟨v, .endpoint⟩ :: ts ∧ v.clock = time

/-- **The attempt was made**: the document was posted once, to the collector that a whole resolution
came to. -/
structure Made (c : Client) (body : Json) (a : Attempt) (ts : List Turn) : Prop where
  course : c.locator.resolve.Course a.resolution a.base
  locates : ∀ t ∈ a.resolution, t.request.locates = true
  post : a.post = ⟨a.base ++ "/api/submit-scan", body, uploadTimeoutMs⟩
  turns : ∃ v v', ts = a.resolution ++
    [⟨v, .log (.info ("[Server] Uploading scan to " ++ a.post.url ++ " as " ++
        c.identity.agentId ++ " (attempt " ++ toString a.number ++ "/" ++ toString maxAttempts ++
        ")"))⟩,
      ⟨a.answered, .post a.post⟩, ⟨v', .log (uploadLine a.reply)⟩]

/-- What an attempt is followed by: after a retryable reply the collector in use is given up once, and
then the client waits, unless the attempts are used up. -/
def Retreat (a : Attempt) (ts : List Turn) : Prop :=
  (¬ PostReply.Retryable a.reply → ts = []) ∧
    (PostReply.Retryable a.reply → ∃ v us, ts = ⟨v, .use none⟩ :: us ∧
      (a.number = maxAttempts → us = []) ∧
      (a.number ≠ maxAttempts → ∃ v₁ v₂, us =
        [⟨v₁, .log (.info ("[Server] Retrying in " ++ toString (backoffMs a.number) ++ "ms..."))⟩,
          ⟨v₂, .sleep (1000 * 2 ^ (a.number - 1))⟩]))

theorem Retreat.wait {a : Attempt} (h : PostReply.Retryable a.reply) (hn : a.number ≠ maxAttempts)
    (v v₁ v₂ : World) : a.Retreat [⟨v, .use none⟩,
      ⟨v₁, .log (.info ("[Server] Retrying in " ++ toString (backoffMs a.number) ++ "ms..."))⟩,
      ⟨v₂, .sleep (backoffMs a.number)⟩] :=
  ⟨fun hno => absurd h hno, fun _ => ⟨v, _, rfl, fun he => absurd he hn, fun _ => ⟨v₁, v₂, rfl⟩⟩⟩

theorem Retreat.leave {a : Attempt} (h : PostReply.Retryable a.reply) (hn : a.number = maxAttempts)
    (v : World) : a.Retreat [⟨v, .use none⟩] :=
  ⟨fun hno => absurd h hno, fun _ => ⟨v, [], rfl, fun _ => rfl, fun he => absurd hn he⟩⟩

/-- All turns of an attempt. -/
def Went (c : Client) (body : Json) (a : Attempt) (ts : List Turn) : Prop :=
  ∃ us vs, ts = us ++ vs ∧ Made c body a us ∧ a.Retreat vs

end Attempt

variable {w : World}

theorem attempt_alone (c : Client) (body : Json) (number : Nat) :
    (c.attempt body number).Under alone w fun ts w' reply => ∃ a : Attempt,
      a.number = number ∧ a.reply = reply ∧ Attempt.Made c body a ts ∧ a.StartsAt w.clock ∧
        w'.endpoint = some a.base ∧ w'.clock = a.answered.clock := by
  unfold attempt
  rw [under_bind]
  refine (((c.locator.resolved_alone w).and (under_course _)).and
    c.locator.resolve_only.under).mono fun rs v base h => ?_
  obtain ⟨⟨⟨he, hres⟩, hcourse⟩, hloc⟩ := h
  rw [under_bind, under_log]
  intro v₁ h₁
  rw [under_bind, under_request]
  intro v₂ h₂
  rw [under_bind, under_log]
  intro v₃ h₃
  obtain ⟨us, hus⟩ := hres.starts
  refine ⟨⟨number, rs, base, ⟨base ++ "/api/submit-scan", body, uploadTimeoutMs⟩, v₂⟩, rfl, ?_,
    ⟨hcourse, hloc, rfl, v₁, v₃, ?_⟩, ⟨w, us, hus, rfl⟩, ?_, ?_⟩
  · rfl
  · rfl
  · exact h₃.endpoint.trans (h₂.endpoint.trans (h₁.endpoint.trans he))
  · rw [h₃.eq fun ms h => h]
    rfl

/-! ## All attempts -/

/-- The later attempt began exactly the wait after the reply to the earlier one: a second after the
first, and twice as long after the next. -/
def Waited (a b : Attempt) : Prop :=
  b.StartsAt (a.answered.clock + 1000 * 2 ^ (a.number - 1))

/-- How an upload ends: the last attempt was settled, or all are used up. -/
def Ended (left : Nat) (attempts : List Attempt) (w' : World) (outcome : UploadOutcome) : Prop :=
  (∃ before last status, attempts = before ++ [last] ∧
    (∀ a ∈ before, PostReply.Retryable a.reply) ∧ last.reply = .ok status ∧
    ((200 ≤ status ∧ status < 300 ∧ outcome = .delivered last.number) ∨
      (400 ≤ status ∧ status < 500 ∧ outcome = .rejected status last.number)) ∧
    w'.endpoint = some last.base) ∨
  (attempts.length = left ∧ (∀ a ∈ attempts, PostReply.Retryable a.reply) ∧
    outcome = .exhausted maxAttempts ∧ w'.endpoint = none)

/-- What the attempts that are left come to. -/
structure Uploaded (c : Client) (body : Json) (left : Nat) (w : World) (attempts : List Attempt)
    (ts : List Turn) (w' : World) (outcome : UploadOutcome) : Prop where
  turns : ∃ tss closing, ts = tss.flatten ++ closing ∧
    List.Forall₂ (Attempt.Went c body) attempts tss ∧ ∀ t ∈ closing, ∃ line, t.request = .log line
  numbers : attempts.map Attempt.number = List.range' (maxAttempts + 1 - left) attempts.length
  length : attempts.length ≤ left
  starts : ∀ a ∈ attempts.head?, a.StartsAt w.clock
  waits : attempts.IsChain Waited
  clock : w'.clock = (attempts.getLast?.map (·.answered.clock)).getD w.clock
  ends : Ended left attempts w' outcome

variable {c : Client} {body : Json} {left : Nat} {attempts : List Attempt} {ts : List Turn}
  {w' : World} {outcome : UploadOutcome}

/-- No attempt is left. -/
theorem Uploaded.nil (hw : w.endpoint = none) (v : World) (line : LogLine) :
    Uploaded c body 0 w [] [⟨v, .log line⟩] (w.mark (.logged line)) (.exhausted maxAttempts) where
  turns := ⟨[], _, rfl, .nil, by simp⟩
  numbers := rfl
  length := le_rfl
  starts := by simp
  waits := .nil
  clock := rfl
  ends := .inr ⟨rfl, by simp, rfl, hw⟩

/-- The last attempt was settled. -/
theorem Uploaded.last {a : Attempt} {status : Nat} (hl : left < maxAttempts)
    (hn : a.number = maxAttempts - left) (ha : Attempt.Went c body a ts)
    (hstart : a.StartsAt w.clock) (hclock : w'.clock = a.answered.clock)
    (hst : a.reply = .ok status)
    (ho : (200 ≤ status ∧ status < 300 ∧ outcome = .delivered a.number) ∨
      (400 ≤ status ∧ status < 500 ∧ outcome = .rejected status a.number))
    (hep : w'.endpoint = some a.base) : Uploaded c body (left + 1) w [a] ts w' outcome where
  turns := ⟨[ts], [], by simp, .cons ha .nil, by simp⟩
  numbers := by
    rw [List.map_singleton, List.length_singleton, List.range'_one, hn]
    congr 1
    omega
  length := Nat.succ_le_succ (Nat.zero_le left)
  starts := by simpa using hstart
  waits := .singleton a
  clock := hclock
  ends := .inl ⟨[], a, status, rfl, by simp, hst, ho, hep⟩

/-- **A failed attempt in front** of those that are left. -/
theorem Uploaded.cons {a : Attempt} {v : World} {us vs : List Turn} (hl : left < maxAttempts)
    (hmade : Attempt.Made c body a us) (hretreat : a.Retreat vs)
    (hn : a.number = maxAttempts - left)
    (hretry : PostReply.Retryable a.reply) (hstart : a.StartsAt w.clock)
    (hlast : left = 0 → v.clock = a.answered.clock)
    (hwait : left ≠ 0 → v.clock = a.answered.clock + backoffMs a.number)
    (h : Uploaded c body left v attempts ts w' outcome) :
    Uploaded c body (left + 1) w (a :: attempts) (us ++ (vs ++ ts)) w' outcome where
  turns := by
    obtain ⟨tss, closing, rfl, hw, hc⟩ := h.turns
    exact ⟨(us ++ vs) :: tss, closing, by simp, .cons ⟨us, vs, rfl, hmade, hretreat⟩ hw, hc⟩
  numbers := by
    have hnum := h.numbers
    rw [List.map_cons, List.length_cons, List.range'_succ, hnum, hn]
    congr 1
    · omega
    · congr 1
      omega
  length := Nat.succ_le_succ h.length
  starts := by simpa using hstart
  waits := by
    cases attempts with
    | nil => exact .singleton a
    | cons b rest =>
      have hne : left ≠ 0 := by
        have := h.length
        rw [List.length_cons] at this
        omega
      have hb : Waited a b := by
        have := h.starts b rfl
        rw [hwait hne] at this
        exact this
      exact List.isChain_cons_cons.2 ⟨hb, h.waits⟩
  clock := by
    cases attempts with
    | cons b rest =>
      rw [h.clock, List.getLast?_cons_cons, List.getLast?_eq_some_getLast (List.cons_ne_nil b rest)]
      rfl
    | nil =>
      -- nothing is left, so there was nothing to wait for
      have hz : left = 0 := by
        rcases h.ends with ⟨before, last, status, he, -⟩ | ⟨he, -⟩
        · simp at he
        · exact he.symm
      rw [h.clock]
      exact hlast hz
  ends := by
    rcases h.ends with ⟨before, last, status, rfl, hb, hs⟩ | ⟨hlen, hb, ho⟩
    · exact .inl ⟨a :: before, last, status, rfl, List.forall_mem_cons.2 ⟨hretry, hb⟩, hs⟩
    · exact .inr ⟨by rw [List.length_cons, hlen], List.forall_mem_cons.2 ⟨hretry, hb⟩, ho⟩

/-- **The attempts that are left.** -/
theorem upload_alone (c : Client) (body : Json) (left : Nat) (hl : left ≤ maxAttempts)
    (hw : left = 0 → w.endpoint = none) :
    (c.upload body left).Under alone w fun ts w' outcome =>
      ∃ attempts, Uploaded c body left w attempts ts w' outcome := by
  induction left generalizing w with
  | zero =>
    unfold upload
    rw [under_bind, under_log]
    intro v hv
    obtain rfl := hv.eq fun ms h => h
    exact ⟨[], .nil (hw rfl) _ _⟩
  | succ left ih =>
    unfold upload
    dsimp only
    rw [under_bind]
    refine (c.attempt_alone body _).mono ?_
    rintro us v reply ⟨a, hn, rfl, hmade, hstart, hep, hclock⟩
    split
    · rename_i outcome hs
      obtain ⟨status, hst, ho⟩ := settled?_eq_some.1 hs
      have hsettled : ¬ PostReply.Retryable a.reply := by
        rw [← settled?_eq_none (n := maxAttempts - left), hs]
        exact Option.some_ne_none _
      rw [← hn] at ho
      exact ⟨[a], .last hl hn ⟨us, [], rfl, hmade, fun _ => rfl, fun h => absurd h hsettled⟩ hstart
        hclock hst ho hep⟩
    · rename_i hs
      have hretry := settled?_eq_none.1 hs
      rw [under_bind]
      unfold Locator.invalidate
      rw [under_request]
      intro v₁ h₁
      obtain rfl := h₁.eq fun ms h => h
      rw [← hn]
      split
      · rename_i hz
        rw [under_bind, under_log]
        intro v₂ h₂
        have hv₂ := h₂.eq fun ms h => h
        rw [under_bind, under_request]
        intro v₃ h₃
        have hclock₃ : v₃.clock = a.answered.clock + backoffMs a.number := by
          obtain ⟨ms, rfl, rfl⟩ := h₃
          rw [hv₂, ← hclock]
          rfl
        refine (ih (by omega) fun h => absurd h hz).mono ?_
        rintro ts w' outcome ⟨attempts, h⟩
        have hcons := Uploaded.cons hl hmade (.wait hretry (by omega) v₁ v₂ v₃) hn hretry hstart
          (fun h => absurd h hz) (fun _ => hclock₃) h
        exact ⟨a :: attempts, hcons⟩
      · rename_i hz
        obtain rfl : left = 0 := by omega
        have hclock₁ : (v₁.answer (.use none)).2.clock = a.answered.clock := hclock
        refine (ih (Nat.zero_le _) fun _ => rfl).mono ?_
        rintro ts w' outcome ⟨attempts, h⟩
        have hcons := Uploaded.cons hl hmade (.leave hretry hn v₁) hn hretry hstart
          (fun _ => hclock₁) (fun h => absurd rfl h) h
        exact ⟨a :: attempts, hcons⟩

/-! ## An upload -/

/-- The post of an attempt, as a turn. -/
def Attempt.posting (a : Attempt) : Turn := ⟨a.answered, .post a.post⟩

theorem Attempt.Retreat.filter_posts {a : Attempt} {vs : List Turn} (h : a.Retreat vs) :
    vs.filter (·.request.posts) = [] := by
  by_cases hr : PostReply.Retryable a.reply
  · obtain ⟨v, us, rfl, hlast, hwait⟩ := h.2 hr
    by_cases hn : a.number = maxAttempts
    · rw [hlast hn]
      rfl
    · obtain ⟨v₁, v₂, rfl⟩ := hwait hn
      rfl
  · rw [h.1 hr]
    rfl

/-- An attempt posts once. -/
theorem Attempt.Went.filter_posts {a : Attempt} {us : List Turn} (h : Went c body a us) :
    us.filter (·.request.posts) = [a.posting] := by
  obtain ⟨us, vs, rfl, hmade, hretreat⟩ := h
  obtain ⟨v, v', rfl⟩ := hmade.turns
  have hres : a.resolution.filter (·.request.posts) = [] :=
    List.filter_eq_nil_iff.2 fun t ht => by
      rw [Request.not_posts_of_locates (hmade.locates t ht)]
      exact Bool.false_ne_true
  rw [List.filter_append, List.filter_append, hres, hretreat.filter_posts]
  rfl

/-- **The posts of an upload** are those of its attempts. -/
theorem filter_posts {tss : List (List Turn)}
    (h : List.Forall₂ (Attempt.Went c body) attempts tss) :
    tss.flatten.filter (·.request.posts) = attempts.map Attempt.posting := by
  induction h with
  | nil => rfl
  | cons ha _ ih => rw [List.flatten_cons, List.filter_append, ha.filter_posts, ih]; rfl

theorem Ended.ne_nil (h : Ended left attempts w' outcome) (hl : 0 < left) : attempts ≠ [] := by
  rcases h with ⟨before, last, status, rfl, -⟩ | ⟨hlen, -⟩
  · simp
  · rintro rfl
    rw [List.length_nil] at hlen
    omega

theorem Ended.exhausted_iff (h : Ended left attempts w' outcome) :
    outcome = .exhausted maxAttempts ↔
      attempts.length = left ∧ ∀ a ∈ attempts, PostReply.Retryable a.reply := by
  rcases h with ⟨before, last, status, rfl, -, hst, ho, -⟩ | ⟨hlen, hall, ho, -⟩
  · refine iff_of_false ?_ fun hall => ?_
    · rcases ho with ⟨-, -, rfl⟩ | ⟨-, -, rfl⟩ <;> exact UploadOutcome.noConfusion
    · -- the last attempt was settled by its status
      have hlast := hall.2 last (by simp) status hst
      omega
  · exact iff_of_true ho ⟨hlen, hall⟩

theorem Ended.ne_unencodable (h : Ended left attempts w' outcome) : outcome ≠ .unencodable := by
  rcases h with ⟨before, last, status, -, -, -, ho, -⟩ | ⟨-, -, rfl, -⟩
  · rcases ho with ⟨-, -, rfl⟩ | ⟨-, -, rfl⟩ <;> exact UploadOutcome.noConfusion
  · exact UploadOutcome.noConfusion

theorem uploadBody_eq (i : Identity) (r : Report) : uploadBody i r = .ok (.obj
    (Wire.reportMembers r ++ [("agent_id", .str i.agentId), ("systemInfo", i.systemInfo)])) := rfl

/-- **An upload by itself**: up to three attempts with the same document, each after the wait for the
one before it; the first whose reply says yes or refuses is the last, and its collector stays in use;
after three others none is. -/
theorem submit_alone (c : Client) (r : Report) (w : World) :
    (c.submit r).Under alone w fun ts w' outcome => ∃ body attempts tss closing,
      uploadBody c.identity r = .ok body ∧
      ts = ⟨w, .submit r⟩ :: (tss.flatten ++ closing) ∧
      List.Forall₂ (Attempt.Went c body) attempts tss ∧
      (∀ t ∈ closing, ∃ line, t.request = .log line) ∧
      ts.filter (·.request.posts) = attempts.map Attempt.posting ∧
      1 ≤ attempts.length ∧ attempts.length ≤ 3 ∧
      attempts.map Attempt.number = List.range' 1 attempts.length ∧
      attempts.IsChain Waited ∧
      (∀ last ∈ attempts.getLast?, w'.clock = last.answered.clock) ∧
      Ended 3 attempts w' outcome ∧
      (outcome = .exhausted 3 ↔
        attempts.length = 3 ∧ ∀ a ∈ attempts, PostReply.Retryable a.reply) ∧
      outcome ≠ .unencodable := by
  unfold submit
  rw [under_bind, under_request]
  intro v hv
  obtain rfl := hv.eq fun ms h => h
  refine (c.upload_alone _ maxAttempts le_rfl fun h => nomatch h).mono ?_
  rintro ts w' outcome ⟨attempts, h⟩
  obtain ⟨tss, closing, rfl, hwent, hclosing⟩ := h.turns
  refine ⟨_, attempts, tss, closing, uploadBody_eq .., rfl, hwent, hclosing, ?_,
    List.length_pos_iff.2 (h.ends.ne_nil (by decide)), h.length, h.numbers, h.waits, ?_, h.ends,
    h.ends.exhausted_iff, h.ends.ne_unencodable⟩
  · have hlog : closing.filter (·.request.posts) = [] :=
      List.filter_eq_nil_iff.2 fun t ht => by
        obtain ⟨line, hline⟩ := hclosing t ht
        rw [hline]
        exact Bool.false_ne_true
    have hsubmit : (⟨v, .submit r⟩ : Turn).request.posts = false := rfl
    show List.filter _ (⟨v, .submit r⟩ :: (tss.flatten ++ closing)) = _
    rw [List.filter_cons_of_neg (by simp [hsubmit]), List.filter_append, filter_posts hwent, hlog,
      List.append_nil]
  · intro last hlast
    have hclock := h.clock
    rw [hlast] at hclock
    exact hclock

end Client

end DownloadTriage
