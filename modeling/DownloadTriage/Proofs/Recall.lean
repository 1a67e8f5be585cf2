import Mathlib
import DownloadTriage.Program.Rehearsal
import DownloadTriage.Proofs.Files
import DownloadTriage.Proofs.Quoting
import DownloadTriage.Proofs.Resolution

/-!
# A collector that answered is found again

The record of the last collector that answered is read back as it was written, whatever the URL is made
of. So a locator that tries the record first comes back to the collector that it found before, and asks
no other resolver, as long as that collector is in good health.

A candidate loses one slash at its end when it is adopted, and it is recorded without it. A record that
still ends in a slash is a candidate like any other, so it loses that one too; with a record that does
not, every later resolution has the same answer.

* `LastKnown.decode?_encode`: the record of a URL says that URL.
* `Locator.search_recorded`: a search that starts from the record, turn by turn.
* `Locator.resolutions_recorded`: any number of resolutions, while others give up the collector.
-/

namespace DownloadTriage

/-! ## The record is read back -/

namespace Json

/-- A text as it is written and read. -/
theorem readValue_string (fuel : Nat) (s : String) (rest : List UInt8) :
    readValue (fuel + 1) (quote :: (escape (Utf8.bytes s) ++ quote :: rest)) =
      some (.str s, rest) := by
  rw [readValue, if_pos rfl, readStringBody_escape, Option.map_some]
  dsimp only
  rw [textOfBody_escape]
  rfl

theorem encode_member (name text : String) :
    encode (.obj [(name, .str text)]) =
      openBrace :: quote :: (escape (Utf8.bytes name) ++ quote :: colon :: quote ::
        (escape (Utf8.bytes text) ++ [quote, closeBrace])) := by
  simp [encode, encodeMembers, encodeString]

/-- **An object of one text** is read as it was written. -/
theorem read_member (name text : String) :
    read (encode (.obj [(name, .str text)])) = some (.obj [(name, .str text)]) := by
  rw [encode_member]
  generalize hbs : escape (Utf8.bytes name) ++ _ = bs
  obtain ⟨n, hn⟩ : ∃ n, 2 * (openBrace :: quote :: bs).length + 2 = n + 4 :=
    ⟨2 * bs.length + 2, by simp only [List.length_cons]; omega⟩
  have hbrace (cs : List UInt8) : skipBlanks (openBrace :: cs) = openBrace :: cs := rfl
  have hquote (cs : List UInt8) : skipBlanks (quote :: cs) = quote :: cs := rfl
  have hcolon (cs : List UInt8) : skipBlanks (colon :: cs) = colon :: cs := rfl
  have hclose (cs : List UInt8) : skipBlanks (closeBrace :: cs) = closeBrace :: cs := rfl
  have hmembers : readMembers (n + 3) (quote :: bs) = some ([(some name, .str text)], []) := by
    rw [← hbs, readMembers]
    simp only [readStringBody_escape]
    simp [hcolon, hquote, hclose, readValue_string, textOfBody_escape]
  have h₁ : ¬ openBrace = quote := by decide
  have h₂ : ¬ openBrace = openBracket := by decide
  have h₃ : ¬ quote = closeBrace := by decide
  unfold read
  rw [hn, hbrace, readValue, if_neg h₁, if_neg h₂, if_pos rfl, hquote]
  dsimp only
  rw [if_neg h₃, hmembers]
  rfl

theorem isText_encode_member (name text : String) : IsText (encode (.obj [(name, .str text)])) := by
  have hascii (bs : List UInt8) (h : bs.all (· < 0x80) = true) : IsText bs :=
    isText_of_ascii fun b hb => of_decide_eq_true (List.all_eq_true.1 h b hb)
  have hsplit : encode (.obj [(name, .str text)]) =
      [openBrace, quote] ++ (escape (Utf8.bytes name) ++ ([quote, colon, quote] ++
        (escape (Utf8.bytes text) ++ [quote, closeBrace]))) := encode_member name text
  rw [hsplit]
  exact (hascii _ (by decide)).append ((isText_escape name).append
    ((hascii _ (by decide)).append ((isText_escape text).append (hascii _ (by decide)))))

end Json

/-- **The record of a URL says that URL**, unless it is empty. -/
theorem LastKnown.decode?_encode {url : String} (h : url ≠ "") :
    decode? (encode url) = some url := by
  have henc : encode url = Json.encode (.obj [("baseUrl", .str url)]) := rfl
  obtain ⟨text, htext⟩ := Json.isText_encode_member "baseUrl" url
  unfold decode?
  rw [henc, ← htext, Utf8.decode?_bytes, htext, Option.bind_some, Json.read_member,
    Option.bind_some]
  have hslots : ofJson? (.obj [("baseUrl", .str url)]) = some url := by
    rfl
  rw [hslots]
  simp [h]

/-! ## The record is kept -/

namespace FileTree

/-- The path has room for a file: its entry lies in a directory that is there, and no directory or
device stands at it. -/
def HasRoom (t : FileTree) (p : Path) : Prop :=
  ∃ here, t.entry p = .ok here ∧ t.node? here ≠ some .directory ∧ t.node? here ≠ some .device

theorem write_of_entry {t : FileTree} {p : Path} {here : Place} (he : t.entry p = .ok here)
    (hdir : t.node? here ≠ some .directory) (hdev : t.node? here ≠ some .device)
    (data : Array UInt8) : t.write p data = .ok (t.put here (.file (.bytes data))) := by
  unfold write
  rw [he]
  dsimp only [bind, Except.bind]
  cases hn : t.node? here with
  | none => rfl
  | some n =>
    cases n with
    | file c => rfl
    | directory => exact absurd hn hdir
    | device => exact absurd hn hdev

theorem write_of_hasRoom {t : FileTree} {p : Path} (h : t.HasRoom p) (data : Array UInt8) :
    ∃ t', t.write p data = .ok t' ∧ t'.content p = .ok (.bytes data) := by
  obtain ⟨here, he, hdir, hdev⟩ := h
  refine ⟨t.put here (.file (.bytes data)), write_of_entry he hdir hdev data, ?_⟩
  unfold content
  rw [look_put he hdir]
  rfl

end FileTree

namespace LastKnown

/-- The file at the path is the record of the URL. -/
def Recorded (t : FileTree) (p : Path) (url : String) : Prop :=
  t.content p = .ok (.bytes (encode url).toArray)

variable {t : FileTree} {p : Path} {url : String}

theorem recorded_save (h : t.HasRoom p) (url : String) :
    Recorded (save t url (some p)).1 p url := by
  obtain ⟨t', hw, hc⟩ := FileTree.write_of_hasRoom h (encode url).toArray
  unfold save Recorded
  dsimp only
  rw [hw]
  exact hc

/-- To record a URL again changes nothing. -/
theorem Recorded.save (h : Recorded t p url) : Recorded (save t url (some p)).1 p url := by
  rcases content_save t url p with he | hc
  · rw [he]
    exact h
  · exact hc

theorem Recorded.load (h : Recorded t p url) (hu : url ≠ "") : load t (some p) = some url := by
  have hread : t.read p = .ok (encode url).toArray := by
    unfold FileTree.read
    rw [h]
    rfl
  unfold LastKnown.load
  dsimp only
  rw [hread]
  exact decode?_encode hu

end LastKnown

/-! ## Later resolutions -/

open Program LastKnown

/-- Others may give up the collector in use. They adopt none, leave the record alone, and the recorded
collector stays in good health. -/
def Meanwhile.faithful (p : Path) (url : String) : Meanwhile := fun w r v =>
  (v.endpoint = w.endpoint ∨ v.endpoint = none) ∧ v.files.content p = w.files.content p ∧
    (r = .probe url → (v.answer (.probe url)).1 = true)

namespace Locator

open Meanwhile (faithful alone)

/-- What is asked for to come back to a recorded collector. -/
def comeback (p : Path) (url : String) : List Request :=
  [.endpoint, .files, .probe url,
    .log (.info ("[Server] Selected endpoint " ++ stripSlash url ++ " (via " ++
      Resolver.lastKnown.name ++ ")")),
    .use (some (stripSlash url)), .record (some p) (stripSlash url)]

variable {l : Locator} {p : Path} {rest : List Resolver} {w : World} {url : String}

/-- **A search from the record** probes what is recorded and nothing else. -/
theorem search_recorded (hp : l.record = some p) (hw : Recorded w.files p url) (hu : url ≠ "") :
    (l.search (.lastKnown :: rest)).Under (faithful p url) w fun ts w' u =>
      u = stripSlash url ∧ .endpoint :: ts.map Turn.request = comeback p url ∧
        (stripSlash url = url → Recorded w'.files p url ∧
          (w'.endpoint = none ∨ w'.endpoint = some url)) := by
  unfold search Resolver.candidates
  rw [hp, under_bind, under_bind, under_request]
  intro v₁ h₁
  have hr₁ : Recorded v₁.files p url := Eq.trans h₁.2.1 hw
  rw [under_pure, World.reply_files, hr₁.load hu, under_bind]
  show (firstHealthy [url]).Under _ _ _
  unfold firstHealthy
  rw [under_bind, under_request]
  intro v₂ h₂
  have hok : (v₂.answer (.probe url)).1 = true := h₂.2.2 rfl
  rw [hok, if_pos rfl, under_pure]
  unfold adopt
  rw [under_bind, under_log]
  intro v₃ h₃
  rw [under_bind, under_request]
  intro v₄ h₄
  rw [under_bind, under_request]
  intro v₅ h₅
  rw [under_pure]
  refine ⟨rfl, by rw [hp]; rfl, fun hs => ?_⟩
  rw [hp, hs]
  have hr₅ : Recorded v₅.files p url :=
    h₅.2.1.trans (h₄.2.1.trans (h₃.2.1.trans (h₂.2.1.trans hr₁)))
  refine ⟨hr₅.save, ?_⟩
  rcases h₅.1 with he | he
  · exact .inr (he.trans (congrArg some hs))
  · exact .inl he

/-- **A resolution with nothing in use** comes back to the record. -/
theorem resolve_recorded (hp : l.record = some p) (hl : l.resolvers = .lastKnown :: rest)
    (he : w.endpoint = none) (hw : Recorded w.files p url) (hu : url ≠ "") :
    l.resolve.Under (faithful p url) w fun ts w' u =>
      u = stripSlash url ∧ ts.map Turn.request = comeback p url ∧
        (stripSlash url = url → Recorded w'.files p url ∧
          (w'.endpoint = none ∨ w'.endpoint = some url)) := by
  unfold resolve
  rw [under_bind, under_request]
  intro v hv
  have hn : (v.answer .endpoint).1 = none := hv.1.elim (·.trans he) id
  rw [hn, hl]
  exact search_recorded hp (Eq.trans hv.2.1 hw) hu

/-- A resolution comes back to the record, unless the collector is still in use. -/
theorem resolve_again (hp : l.record = some p) (hl : l.resolvers = .lastKnown :: rest)
    (he : w.endpoint = none ∨ w.endpoint = some url) (hw : Recorded w.files p url) (hu : url ≠ "")
    (hs : stripSlash url = url) :
    l.resolve.Under (faithful p url) w fun ts w' u =>
      u = url ∧ (ts.map Turn.request = [.endpoint] ∨ ts.map Turn.request = comeback p url) ∧
        Recorded w'.files p url ∧ (w'.endpoint = none ∨ w'.endpoint = some url) := by
  unfold resolve
  rw [under_bind, under_request]
  intro v hv
  have hr : Recorded v.files p url := Eq.trans hv.2.1 hw
  have hve : (v.answer .endpoint).1 = none ∨ (v.answer .endpoint).1 = some url :=
    hv.1.elim (fun h => he.imp h.trans h.trans) .inl
  rcases hve with hn | hn
  · rw [hn, hl]
    refine (search_recorded hp hr hu).mono fun ts w' u h => ?_
    exact ⟨h.1.trans hs, .inr h.2.1, h.2.2 hs⟩
  · rw [hn]
    exact ⟨rfl, .inl rfl, hr, .inr hn⟩

/-- **Any number of resolutions** have the same answer. Each uses what is in use, or comes back to the
record. -/
theorem resolutions_recorded (hp : l.record = some p) (hl : l.resolvers = .lastKnown :: rest)
    (he : w.endpoint = none ∨ w.endpoint = some url) (hw : Recorded w.files p url) (hu : url ≠ "")
    (hs : stripSlash url = url) (n : Nat) :
    (l.resolutions n).Under (faithful p url) w fun ts _ us =>
      us = List.replicate n url ∧ ∃ tss : List (List Turn), ts = tss.flatten ∧
        ∀ us ∈ tss, us.map Turn.request = [.endpoint] ∨ us.map Turn.request = comeback p url := by
  induction n generalizing w with
  | zero => exact ⟨rfl, [], rfl, fun us hus => absurd hus List.not_mem_nil⟩
  | succ n ih =>
    unfold resolutions
    rw [under_bind]
    refine (resolve_again hp hl he hw hu hs).mono ?_
    rintro ts v u ⟨rfl, hts, hv, hve⟩
    rw [under_bind]
    refine (ih hve hv).mono ?_
    rintro us w' _ ⟨rfl, tss, rfl, htss⟩
    exact ⟨rfl, ts :: tss, by simp, List.forall_mem_cons.2 ⟨hts, htss⟩⟩

/-- The collector in use is given up so many times. -/
def giveUps : Nat → Program Unit
  | 0 => pure ()
  | n + 1 => do
    invalidate
    giveUps n

/-- To give up the collector leaves the record alone. -/
theorem giveUps_recorded (hw : Recorded w.files p url) (n : Nat) :
    (giveUps n).Under (faithful p url) w fun ts w' _ =>
      ts.map Turn.request = List.replicate n (.use none) ∧
        (w.endpoint = none ∨ 0 < n → w'.endpoint = none) ∧ Recorded w'.files p url := by
  induction n generalizing w with
  | zero => exact ⟨rfl, fun h => h.elim id (absurd · (Nat.lt_irrefl 0)), hw⟩
  | succ n ih =>
    unfold giveUps invalidate
    rw [under_bind, under_request]
    intro v hv
    have hv' : Recorded (v.answer (.use none)).2.files p url := Eq.trans hv.2.1 hw
    refine (ih hv').mono fun ts w' _ h => ⟨?_, fun _ => h.2.1 (.inl rfl), h.2.2⟩
    rw [List.map_append, h.1]
    rfl

/-- A search does not both find a collector and find none. -/
theorem Found.not_inVain {rs : List Resolver} {ts : List Turn} (h : Found l rs ts url) :
    ¬ InVain l rs ts := by
  obtain ⟨_, _, _, _, tss, us, v₁, v₂, v₃, _, _, _, _, _, hts⟩ := h
  rintro ⟨tss', w₁, w₂, -, hts'⟩
  have hlast : ts.getLast? = some ⟨v₃, .record l.record url⟩ := by rw [hts]; simp
  have hlast' : ts.getLast? = some ⟨w₂, .use (some l.fallback)⟩ := by rw [hts']; simp
  cases hlast.symm.trans hlast'

/-- **A collector that was found is found again.** Whatever candidate was adopted, it is recorded; with
nothing in use but the record, the next resolution asks the record alone, probes what it says alone and
answers with it, less a slash at its end; and if there is none, so do all resolutions after that. -/
theorem resolve_sticks (hp : l.record = some p) (hl : l.resolvers = .lastKnown :: rest)
    (he : w.endpoint = none) (hw : w.files.HasRoom p) :
    l.resolve.Under alone w fun ts w' u =>
      (∃ us, ts = ⟨w, .endpoint⟩ :: us ∧ Found l l.resolvers us u) → u ≠ "" →
      (∀ n, (giveUps (n + 1) >>= fun _ => l.resolve).Under (faithful p u) w' fun vs _ u' =>
        u' = stripSlash u ∧
          vs.map Turn.request = List.replicate (n + 1) (.use none) ++ comeback p u) ∧
      ∀ v : World, v.files.content p = w'.files.content p →
        (v.endpoint = none → l.resolve.Under (faithful p u) v fun vs _ u' =>
          u' = stripSlash u ∧ vs.map Turn.request = comeback p u) ∧
        (u.endsWith "/" = false → v.endpoint = none ∨ v.endpoint = some u → ∀ n,
          (l.resolutions n).Under (faithful p u) v fun vs _ us =>
            us = List.replicate n u ∧ ∃ vss : List (List Turn), vs = vss.flatten ∧
              ∀ us ∈ vss, us.map Turn.request = [.endpoint] ∨
                us.map Turn.request = comeback p u) := by
  refine (l.resolve_alone w).mono ?_
  rintro ts w' u ⟨-, -, hnone, -⟩ ⟨us, hts, hfound⟩ hu
  -- what was found is recorded
  have hw' : Recorded w'.files p u := by
    obtain ⟨us', hts', hs⟩ := hnone he
    obtain rfl : us = us' := List.cons_inj_right _ |>.1 (hts.symm.trans hts')
    rcases hs with ⟨-, hf⟩ | ⟨hvain, -⟩
    · rw [hf, hp]
      exact recorded_save hw u
    · exact absurd hvain hfound.not_inVain
  refine ⟨fun n => ?_, fun v hv => ⟨fun hve => ?_, fun hs hve n => ?_⟩⟩
  · rw [under_bind]
    refine (giveUps_recorded hw' (n + 1)).mono fun vs v _ hv => ?_
    have hve : v.endpoint = none := hv.2.1 (.inr (Nat.succ_pos n))
    refine (resolve_recorded hp hl hve hv.2.2 hu).mono fun us _ u' h => ⟨h.1, ?_⟩
    rw [List.map_append, hv.1, h.2.1]
  · exact (resolve_recorded hp hl hve (Eq.trans hv hw') hu).mono fun us _ u' h => ⟨h.1, h.2.1⟩
  · have hstrip : stripSlash u = u := if_neg (by simp [hs])
    exact resolutions_recorded hp hl hve (Eq.trans hv hw') hu hstrip n

/-! ## One slash at a time -/

/-- A record at the root. -/
def rootRecord : Path := .ofText "/last.json"

/-- A locator with a record and one candidate. -/
def recalling (candidate : String) : Locator :=
  ⟨some rootRecord, [.lastKnown, .listed "fixed" fun _ => [candidate]], "http://localhost:3000"⟩

/-- Every candidate is in good health. -/
def wellBeing : Surroundings :=
  { Rehearsal.surroundings (fun _ => (.printed "", 0)) (fun _ => (.printed "", 0))
      (Decoder.scripted []) with healthy := fun _ _ => true }

theorem hasRoom_rootRecord : FileTree.HasRoom ⟨[], []⟩ rootRecord :=
  ⟨[Utf8.bytes "last.json"], by cbv, by cbv; simp, by cbv; simp⟩

/-- A candidate with a slash at its end is found, recorded without it, and found again. -/
theorem resolve_sticks_once :
    let l := recalling "http://a/"
    let w := World.begin wellBeing ⟨[], []⟩
    (l.record = some rootRecord ∧ l.resolvers = .lastKnown :: l.resolvers.tail ∧
      w.endpoint = none ∧ w.files.HasRoom rootRecord) ∧
    ∃ ts w', (∃ us, ts = ⟨w, .endpoint⟩ :: us ∧ Found l l.resolvers us "http://a") ∧
      ∀ n, (giveUps (n + 1) >>= fun _ => l.resolve).Under (faithful rootRecord "http://a") w'
        fun vs _ u' => u' = stripSlash "http://a" ∧
          vs.map Turn.request = List.replicate (n + 1) (.use none) ++
            comeback rootRecord "http://a" := by
  intro l w
  have htakes : ∀ r : Request, r.Takes (w.latency r) := by
    intro r
    cases r <;> first | rfl | trivial
  have hurl : (l.resolve.runBeside Machine.idle () w).1 = "http://a" := by cbv
  refine ⟨⟨rfl, rfl, rfl, hasRoom_rootRecord⟩, ?_⟩
  obtain ⟨ts, hsticks, -, -, hnone, -⟩ := under_runBeside
    ((resolve_sticks (l := l) (w := w) rfl rfl rfl hasRoom_rootRecord).and (l.resolve_alone w)) htakes
  rw [hurl] at hsticks hnone
  obtain ⟨us, hts, hs⟩ := hnone rfl
  have hfound : Found l l.resolvers us "http://a" := by
    rcases hs with ⟨h, -⟩ | ⟨-, h, -⟩
    · exact h
    · exact absurd h (by decide)
  exact ⟨ts, _, ⟨us, hts, hfound⟩, (hsticks ⟨us, hts, hfound⟩ (by decide)).1⟩

/-- **A slash is lost each time.** A candidate that ends in two is recorded with one, and the next
resolution comes back without any. -/
theorem resolve_loses_slash :
    let l := recalling "http://a//"
    let w := World.begin wellBeing ⟨[], []⟩
    let w' := (l.resolve.eval w).2
    let v := (invalidate.eval w').2
    w.files.HasRoom rootRecord ∧ (∀ n c, w.around.healthy n c = true) ∧
      (l.resolve.eval w).1 = "http://a/" ∧ w'.probes = ["http://a//"] ∧
      v.endpoint = none ∧ v.files.content rootRecord = w'.files.content rootRecord ∧
      (l.resolve.eval v).1 = "http://a" ∧ "http://a" ≠ "http://a/" := by
  refine ⟨hasRoom_rootRecord, fun _ _ => rfl, ?_, ?_, rfl, rfl, ?_, by decide⟩
  · cbv
  · cbv
  · cbv

end Locator

end DownloadTriage
