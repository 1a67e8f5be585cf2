import DownloadTriage.Proofs.Ending

/-!
# The channel

Commands come into a channel and are heard from there. Two histories are kept of a run: which commands
came in (`Run.entered`), and which signals the loop heard (`Run.heard`). The channel is what lies
between them: until all has ended, what came in is what was heard and then what is still on its way.

A request to shut down is a ticket, and the agent holds the tickets of the requests it heard. At the
end it answers these. What is still on its way then is gone with the channel, so such a ticket is
answered too, but not with a shutdown.

* `Run.play_channel`: the account of the channel along every run.
* `Run.play_answered`: how each request is answered.
-/

namespace DownloadTriage

/-- The ticket of a request to shut down. -/
def Command.ticket? : Command → Option Nat
  | .shutdown t => some t
  | _ => none

/-- The command that a signal brings. -/
def Signal.command? : Signal → Option Command
  | .command c => some c
  | _ => none

/-- The loop or the heartbeats go on, or time passes. -/
def Move.still : Move → Bool
  | .pass _ _ | .begin | .resume | .beat => true
  | _ => false

/-- The commands among signals. -/
def commandsOf (signals : List Signal) : List Command := signals.filterMap Signal.command?

/-- The tickets among commands. -/
def ticketsOf (commands : List Command) : List Nat := commands.filterMap Command.ticket?

/-- The answers to requests that the agent heard, and to ones that it did not. -/
def answersAt (time : Nat) (heard lost : List Command) : List TicketReply :=
  (ticketsOf heard).map (⟨time, ·, true⟩) ++ (ticketsOf lost).map (⟨time, ·, false⟩)

theorem commandsOf_append (ss ts : List Signal) :
    commandsOf (ss ++ ts) = commandsOf ss ++ commandsOf ts := List.filterMap_append

theorem ticketsOf_append (cs ds : List Command) :
    ticketsOf (cs ++ ds) = ticketsOf cs ++ ticketsOf ds := List.filterMap_append

theorem mem_ticketsOf {t : Nat} {cs : List Command} : t ∈ ticketsOf cs ↔ .shutdown t ∈ cs := by
  unfold ticketsOf
  rw [List.mem_filterMap]
  constructor
  · rintro ⟨c, hc, ht⟩
    cases c with
    | shutdown t' =>
      obtain rfl := Option.some.inj ht
      exact hc
    | _ => cases ht
  · exact fun h => ⟨_, h, rfl⟩

namespace Service

/-- The files that the watcher finds settled. -/
def settling (s : Service) (w : World) : List Command :=
  match s.watcher with
  | none => []
  | some x => (x.run w).2.1.map .detected

theorem runWatcher_channel (s : Service) (w : World) :
    (s.runWatcher w).1.inbox = s.inbox ++ s.settling w ∧ (s.runWatcher w).1.replies = s.replies := by
  unfold runWatcher settling
  cases s.watcher with
  | none => exact ⟨(List.append_nil _).symm, rfl⟩
  | some x => exact ⟨rfl, rfl⟩

/-- The last of all is to tell the listeners; then the tickets are answered. -/
theorem finish_channel (s : Service) (w : World) :
    (∃ before, (s.finish w).2.trace = before ++ [(w.clock, .emitted .shutdown)]) ∧
      (s.finish w).1.replies = s.replies ++ (s.agent.tickets.map (⟨w.clock, ·, true⟩) ++
        (ticketsOf s.inbox).map (⟨w.clock, ·, false⟩)) := by
  unfold finish
  dsimp only
  split
  · exact ⟨⟨_, rfl⟩, List.append_assoc ..⟩
  · exact ⟨⟨_, rfl⟩, List.append_assoc ..⟩

/-- The channel, and who is at its ends, stay as they are. -/
structure Still (s s' : Service) : Prop where
  inbox : s'.inbox = s.inbox
  handle : s'.handle = s.handle
  watcher : s'.watcher = s.watcher
  replies : s'.replies = s.replies
  ended : s'.ended = s.ended

theorem Still.refl (s : Service) : s.Still s := ⟨rfl, rfl, rfl, rfl, rfl⟩

theorem beginLoop_still (s : Service) (w : World) : s.Still (s.beginLoop w).1 := by
  unfold beginLoop
  split
  · exact .refl s
  · exact ⟨rfl, rfl, rfl, rfl, rfl⟩

theorem resumeTask_still (s : Service) (w : World) : s.Still (s.resumeTask w).1 := by
  unfold resumeTask
  split
  · exact .refl s
  · exact ⟨rfl, rfl, rfl, rfl, rfl⟩

theorem beat_still (s : Service) (w : World) : s.Still (s.beat w).1 := by
  unfold beat
  split
  · exact .refl s
  · exact ⟨rfl, rfl, rfl, rfl, rfl⟩

/-- Only the channel itself gets shorter when a signal is taken from it. -/
theorem taken_still (s : Service) (signal : Signal) :
    { s with inbox := (s.taken signal).inbox }.Still (s.taken signal) := by
  cases signal <;> exact ⟨rfl, rfl, rfl, rfl, rfl⟩

/-- A loop that goes on has not ended. -/
theorem Waiting.going {s : Service} (h : s.Waiting) (hl : s.agent.left = false) :
    s.ended = false := by
  cases he : s.ended with
  | false => rfl
  | true =>
    rw [(h.atEnd he).1] at hl
    cases hl

end Service

/-- A request that is heard adds its ticket. -/
theorem Agent.step_tickets (s : AgentSetup) (signal : Signal) (a : Agent) (w : World) :
    (a.step s signal w).1.tickets = a.tickets ++ ticketsOf signal.command?.toList := by
  have hask : ∀ waitMs ticket (a : Agent) w,
      (a.requestShutdown waitMs ticket w).1.tickets = a.tickets ++ ticket.toList := by
    intro waitMs ticket a w
    unfold requestShutdown tickets
    cases a.closing <;> rfl
  have hkeep : ∀ a' : Agent, a'.closing = a.closing → a'.tickets = a.tickets ++ [] := by
    intro a' hc
    rw [tickets, hc, List.append_nil]
    rfl
  have hlook : (a.step s signal w).1.tickets = (a.receive s signal w).1.tickets := by
    unfold step tickets
    rw [look_closing]
  rw [hlook]
  cases signal with
  | finished => exact hkeep _ rfl
  | command c =>
    cases c with
    | detected p => exact hkeep _ rfl
    | scan p => exact hkeep _ rfl
    | flush =>
      refine hkeep _ ?_
      dsimp only [receive, handle]
      split
      · rfl
      · exact startNext_closing ..
    | shutdown ticket => exact hask ..
  | orphaned => exact hask _ none { a with orphaned := true } _
  | tick => exact hkeep _ rfl

namespace Run

/-! ## Histories -/

/-- What is collected along moves. -/
def along {α : Type} (f : Run → Move → List α) : Run → List Move → List α
  | _, [] => []
  | r, m :: moves => f r m ++ (r.act m).along f moves

theorem along_append {α : Type} (f : Run → Move → List α) (r : Run) (moves more : List Move) :
    r.along f (moves ++ more) = r.along f moves ++ (r.goOn moves).along f more := by
  induction moves generalizing r with
  | nil => rfl
  | cons m moves ih =>
    rw [List.cons_append, along, along, ih, List.append_assoc]
    rfl

/-- The commands that come into the channel with a move: one that is sent to an agent that has not
ended, and the files that the watcher found settled. -/
def entering (r : Run) : Move → List Command
  | .send c => if (r.service.send c).isSome then [c] else []
  | .watch => r.service.settling r.world
  | _ => []

/-- The signal that the loop hears with a move. -/
def hearing (r : Run) : Move → List Signal
  | .hear signal =>
    if r.service.begun ∧ r.service.agent.left = false ∧ r.service.Hears r.world signal then [signal]
    else []
  | _ => []

theorem hearing_eq_nil (r : Run) {m : Move} (hm : ∀ signal, m ≠ .hear signal) :
    r.hearing m = [] := by
  cases m with
  | hear signal => exact absurd rfl (hm signal)
  | _ => rfl

/-- The commands that came into the channel, in order. -/
def entered (o : Outset) (moves : List Move) : List Command := (start o).along entering moves

/-- The signals that the loop heard, in order. -/
def heard (o : Outset) (moves : List Move) : List Signal := (start o).along hearing moves

theorem entered_append (o : Outset) (moves more : List Move) :
    entered o (moves ++ more) = entered o moves ++ (play o moves).along entering more :=
  along_append ..

theorem heard_append (o : Outset) (moves more : List Move) :
    heard o (moves ++ more) = heard o moves ++ (play o moves).along hearing more := along_append ..

theorem along_single {α : Type} (f : Run → Move → List α) (r : Run) (m : Move) :
    r.along f [m] = f r m := List.append_nil _

/-! ## The account -/

/-- **The account of the channel**, of the commands that came in and the signals that were heard. -/
structure Channel (came : List Command) (signals : List Signal) (r : Run) : Prop where
  /-- Commands are heard in the order in which they came. -/
  order : r.service.ended = false → came = commandsOf signals ++ r.service.inbox
  /-- The agent holds the tickets of the requests that it heard. -/
  tickets : r.service.agent.tickets = ticketsOf (commandsOf signals)
  unanswered : r.service.ended = false → r.service.replies = []
  /-- The channel is gone when all has ended, and all tickets were answered after that was told. -/
  answered : r.service.ended = true → r.service.inbox = [] ∧ ∃ time before lost,
    r.world.trace = before ++ [(time, .emitted .shutdown)] ∧ came = commandsOf signals ++ lost ∧
      r.service.replies = answersAt time (commandsOf signals) lost

theorem start_channel (o : Outset) : Channel [] [] (start o) where
  order _ := rfl
  tickets := rfl
  unanswered _ := rfl
  answered h := nomatch h

variable {r r' : Run} {came : List Command} {signals : List Signal}

/-- A move that leaves the channel alone. -/
theorem Channel.kept (h : Channel came signals r) (hi : r'.service.inbox = r.service.inbox)
    (hc : r'.service.agent.closing = r.service.agent.closing)
    (hr : r'.service.replies = r.service.replies) (he : r'.service.ended = r.service.ended)
    (ht : r.service.ended = true → r'.world.trace = r.world.trace) : Channel came signals r' where
  order := by rw [hi, he]; exact h.order
  tickets := by rw [Agent.tickets, hc]; exact h.tickets
  unanswered := by rw [hr, he]; exact h.unanswered
  answered hended := by
    rw [he] at hended
    rw [hi, hr, ht hended]
    exact h.answered hended

theorem act_still (r : Run) {m : Move} (hm : m.still = true) :
    r.service.Still (r.act m).service := by
  cases m with
  | pass ms files => exact .refl _
  | begin => exact r.service.beginLoop_still r.world
  | resume => exact r.service.resumeTask_still r.world
  | beat => exact r.service.beat_still r.world
  | _ => cases hm

/-- To hear a signal takes it from the channel, and no more. -/
theorem hear_still (r : Run) (signal : Signal) :
    (r.service.taken signal).Still (r.hear signal).service := by
  rw [hear_service]
  dsimp only
  split
  · exact ⟨rfl, rfl, rfl, rfl, rfl⟩
  · exact ⟨rfl, rfl, rfl, rfl, rfl⟩

/-- The agent gets the ticket of a request that it hears. -/
theorem hear_tickets (r : Run) (signal : Signal) : (r.hear signal).service.agent.tickets =
    r.service.agent.tickets ++ ticketsOf signal.command?.toList := by
  rw [hear_service, ← Agent.step_tickets r.service.setup signal r.service.agent r.world]
  dsimp only
  split <;> rfl

/-- A command that is heard was the first on its way. -/
theorem inbox_of_hears {s : Service} {w : World} {signal : Signal} (h : s.Hears w signal) :
    s.inbox = signal.command?.toList ++ (s.taken signal).inbox := by
  cases signal with
  | command c =>
    have hhead : s.inbox.head? = some c := h
    obtain ⟨cs, hcs⟩ := List.head?_eq_some_iff.1 hhead
    show s.inbox = [c] ++ s.inbox.tail
    rw [hcs]
    rfl
  | _ => rfl

namespace Channel

/-- A move that changes nothing. -/
theorem nothing (h : Channel came signals r) {m : Move} (hact : r.act m = r)
    (hin : r.entering m = []) (hout : r.hearing m = []) :
    Channel (came ++ r.entering m) (signals ++ r.hearing m) (r.act m) := by
  rw [hact, hin, hout, List.append_nil, List.append_nil]
  exact h

theorem send (h : Channel came signals r) (c : Command) :
    Channel (came ++ r.entering (.send c)) (signals ++ r.hearing (.send c)) (r.act (.send c)) := by
  by_cases hgone : r.service.ended ∨ !r.service.handle
  · have hnone : r.service.send c = none := if_pos hgone
    refine h.nothing ?_ ?_ rfl
    · show { r with service := (r.service.send c).getD r.service } = r
      rw [hnone]
      rfl
    · show (if (r.service.send c).isSome then [c] else []) = []
      rw [hnone]
      rfl
  · have hsome : r.service.send c = some { r.service with inbox := r.service.inbox ++ [c] } :=
      if_neg hgone
    have he : r.service.ended = false := by
      cases he : r.service.ended with
      | false => rfl
      | true => exact absurd (.inl he) hgone
    have hin : r.entering (.send c) = [c] := by
      show (if (r.service.send c).isSome then [c] else []) = [c]
      rw [hsome]
      rfl
    have hact : r.act (.send c) =
        { r with service := { r.service with inbox := r.service.inbox ++ [c] } } := by
      show { r with service := (r.service.send c).getD r.service } = _
      rw [hsome]
      rfl
    have hout : signals ++ r.hearing (.send c) = signals := List.append_nil _
    rw [hin, hact, hout]
    refine ⟨fun _ => ?_, h.tickets, h.unanswered, fun hended => ?_⟩
    · rw [h.order he, List.append_assoc]
    · exact absurd (he.symm.trans hended) (by decide)

theorem watch (hw : r.service.Waiting) (h : Channel came signals r) :
    Channel (came ++ r.entering .watch) (signals ++ r.hearing .watch) (r.act .watch) := by
  obtain ⟨hagent, -, hended⟩ := Service.runWatcher_rest r.service r.world
  obtain ⟨hinbox, hreplies⟩ := Service.runWatcher_channel r.service r.world
  have hout : signals ++ r.hearing .watch = signals := List.append_nil _
  rw [hout]
  refine ⟨fun he => ?_, ?_, fun he => ?_, fun he => ?_⟩
  · show came ++ r.service.settling r.world =
      commandsOf signals ++ (r.service.runWatcher r.world).1.inbox
    rw [h.order (hended.symm.trans he), hinbox, List.append_assoc]
  · show (r.service.runWatcher r.world).1.agent.tickets = _
    rw [hagent]
    exact h.tickets
  · exact hreplies.trans (h.unanswered (hended.symm.trans he))
  · -- the watcher is closed when all has ended
    have hend := hended.symm.trans he
    have hnone : r.service.settling r.world = [] := by
      rw [Service.settling, (hw.atEnd hend).2.2]
    obtain ⟨hempty, time, before, lost, htrace, hcame, hanswers⟩ := h.answered hend
    refine ⟨?_, time, before, lost, ?_, ?_, hreplies.trans hanswers⟩
    · show (r.service.runWatcher r.world).1.inbox = []
      rw [hinbox, hempty, hnone]
      rfl
    · rw [(act_ended hw hend .watch).2]
      exact htrace
    · show came ++ r.service.settling r.world = _
      rw [hnone, List.append_nil]
      exact hcame

theorem hear (hw : r.service.Waiting) (h : Channel came signals r) (signal : Signal) :
    Channel (came ++ r.entering (.hear signal)) (signals ++ r.hearing (.hear signal))
      (r.act (.hear signal)) := by
  by_cases hs : r.service.begun ∧ r.service.agent.left = false ∧ r.service.Hears r.world signal
  · have hgoing := hw.going hs.2.1
    have hstill := r.hear_still signal
    have htaken := r.service.taken_still signal
    have hact : r.act (.hear signal) = r.hear signal := if_pos hs
    have hout : r.hearing (.hear signal) = [signal] := if_pos hs
    have hin : came ++ r.entering (.hear signal) = came := List.append_nil _
    have hone : commandsOf [signal] = signal.command?.toList := by
      cases signal <;> rfl
    rw [hact, hout, hin]
    refine ⟨fun _ => ?_, ?_, fun _ => ?_, fun hended => ?_⟩
    · rw [h.order hgoing, hstill.inbox, commandsOf_append, hone, List.append_assoc,
        ← inbox_of_hears hs.2.2]
    · rw [hear_tickets, h.tickets, commandsOf_append, hone, ticketsOf_append]
    · rw [hstill.replies, htaken.replies]
      exact h.unanswered hgoing
    · rw [hstill.ended, htaken.ended, hgoing] at hended
      cases hended
  · exact h.nothing (if_neg hs) rfl (if_neg hs)

theorem finish (h : Channel came signals r) :
    Channel (came ++ r.entering .finish) (signals ++ r.hearing .finish) (r.act .finish) := by
  by_cases hf : r.service.agent.left ∧ r.service.heartbeatEnded ∧ r.service.ended = false
  · have hact : r.act .finish =
        ⟨(r.service.finish r.world).1, (r.service.finish r.world).2, r.ledger⟩ := if_pos hf
    have hin : came ++ r.entering .finish = came := List.append_nil _
    have hout : signals ++ r.hearing .finish = signals := List.append_nil _
    rw [hact, hin, hout]
    obtain ⟨⟨before, htrace⟩, hreplies⟩ := Service.finish_channel r.service r.world
    refine ⟨nofun, h.tickets, nofun, fun _ => ⟨rfl, r.world.clock, before, r.service.inbox, htrace,
      h.order hf.2.2, ?_⟩⟩
    dsimp only
    rw [hreplies, h.unanswered hf.2.2, h.tickets]
    rfl
  · exact h.nothing (if_neg hf) rfl rfl

end Channel

/-- **Every move** keeps the account. -/
theorem act_channel (hw : r.service.Waiting) (h : Channel came signals r) (m : Move) :
    Channel (came ++ r.entering m) (signals ++ r.hearing m) (r.act m) := by
  have kept : r.entering m = [] → r.hearing m = [] →
      (r.act m).service.inbox = r.service.inbox →
      (r.act m).service.agent.closing = r.service.agent.closing →
      (r.act m).service.replies = r.service.replies → (r.act m).service.ended = r.service.ended →
      Channel (came ++ r.entering m) (signals ++ r.hearing m) (r.act m) := by
    intro hin hout hi hc hr he
    rw [hin, hout, List.append_nil, List.append_nil]
    exact h.kept hi hc hr he fun hended => (act_ended hw hended m).2
  have still : m.still = true → r.entering m = [] → r.hearing m = [] →
      Channel (came ++ r.entering m) (signals ++ r.hearing m) (r.act m) := by
    intro hm hin hout
    have hstill := r.act_still hm
    refine kept hin hout hstill.inbox (act_closing hw fun signal he => ?_) hstill.replies hstill.ended
    rw [he] at hm
    cases hm
  cases m with
  | send c => exact h.send c
  | release => exact kept rfl rfl rfl rfl rfl rfl
  | notify c => exact kept rfl rfl rfl rfl rfl rfl
  | hear signal => exact h.hear hw signal
  | watch => exact h.watch hw
  | finish => exact h.finish
  | _ => exact still rfl rfl rfl

/-- **Along every run** the account holds. -/
theorem play_channel (o : Outset) (moves : List Move) :
    Channel (entered o moves) (heard o moves) (play o moves) := by
  induction moves using List.reverseRecOn with
  | nil => exact start_channel o
  | append_singleton moves m ih =>
    rw [entered_append, heard_append, along_single, along_single, play_concat]
    exact act_channel (play_waiting o moves) ih m

/-! ## The end of the channel -/

/-- A loop that was left hears nothing. -/
theorem heard_of_left (o : Outset) (moves : List Move) (more : List Move)
    (hl : (play o moves).service.agent.left = true) :
    (play o (moves ++ more)).service.agent.left = true ∧ heard o (moves ++ more) = heard o moves := by
  induction more using List.reverseRecOn with
  | nil =>
    rw [List.append_nil]
    exact ⟨hl, rfl⟩
  | append_singleton more m ih =>
    obtain ⟨hleft, hheard⟩ := ih
    have hw := play_waiting o (moves ++ more)
    rw [← List.append_assoc, play_concat, heard_append, along_single, hheard]
    by_cases hm : ∃ signal, m = .hear signal
    · obtain ⟨signal, rfl⟩ := hm
      have hno : ¬ ((play o (moves ++ more)).service.begun ∧
          (play o (moves ++ more)).service.agent.left = false ∧
          (play o (moves ++ more)).service.Hears (play o (moves ++ more)).world signal) :=
        fun hs => absurd (hleft.symm.trans hs.2.1) (by decide)
      rw [act, if_neg hno, hearing, if_neg hno, List.append_nil]
      exact ⟨hleft, rfl⟩
    · have hquiet : ∀ signal, m ≠ .hear signal := fun signal he => hm ⟨signal, he⟩
      rw [(act_unlooked hw (hw.begun hleft) hquiet).1, hearing_eq_nil _ hquiet, List.append_nil]
      exact ⟨hleft, rfl⟩

/-- With nothing left to be heard the channel is empty. -/
theorem inbox_of_nextSignal {s : Service} {w : World} (h : s.nextSignal w = none) :
    s.inbox = [] := by
  unfold Service.nextSignal at h
  split at h
  · cases h
  · split at h
    · cases h
    · rename_i hi
      exact hi

/-- **How requests are answered.** Until all has ended none is. Then each request that came into the
channel is answered once, after the listeners were told: the ones that the loop heard with a shutdown,
the ones that were still on their way without. A loop that was left hears no more of them; and a request
that came in ends the run. -/
theorem play_answered (o : Outset) (moves : List Move) :
    let r := play o moves
    (r.service.ended = false → r.service.replies = [] ∧
      entered o moves = commandsOf (heard o moves) ++ r.service.inbox) ∧
    (r.service.ended = true → ∃ time before lost,
      r.world.trace = before ++ [(time, .emitted .shutdown)] ∧
      entered o moves = commandsOf (heard o moves) ++ lost ∧
      r.service.replies = answersAt time (commandsOf (heard o moves)) lost) ∧
    (r.service.agent.left = true → ∀ more, heard o (moves ++ more) = heard o moves) ∧
    ∀ t, .shutdown t ∈ entered o moves → r.service.Ends r.world r.world.clock := by
  intro r
  have hchannel := play_channel o moves
  refine ⟨fun he => ⟨hchannel.unanswered he, hchannel.order he⟩, fun he => (hchannel.answered he).2,
    fun hl more => (heard_of_left o moves more hl).2, fun t ht => ?_⟩
  refine play_ends o moves fun more hq he => ?_
  rcases hq.heard with hl | hn
  · exact play_left_closing o _ hl
  · -- all that came in was heard, so the agent holds the ticket
    have hq := play_channel o (moves ++ more)
    have hcame := hq.order he
    rw [inbox_of_nextSignal hn, List.append_nil, entered_append] at hcame
    have hheld : t ∈ (play o (moves ++ more)).service.agent.tickets := by
      rw [hq.tickets, ← hcame, mem_ticketsOf]
      exact List.mem_append_left _ ht
    intro hnone
    rw [Agent.tickets, hnone] at hheld
    cases hheld

/-- Two ask for a shutdown before the agent hears of the first. -/
def twoRequests : List Move := [.send (.shutdown 1), .send (.shutdown 2)]

/-- An agent with nothing to do leaves its loop at the first request, so the second one, which had come
in before, is not answered with a shutdown. -/
theorem twoRequests_lost :
    let r := play slowOutset twoRequests
    entered slowOutset twoRequests = [.shutdown 1, .shutdown 2] ∧
      (r.service.run r.world).1.ended = true ∧
      (r.service.run r.world).2.events = [(0, .shutdown)] ∧
      (r.service.run r.world).1.replies = [⟨0, 1, true⟩, ⟨0, 2, false⟩] :=
  ⟨rfl, rfl, rfl, rfl⟩

end Run

end DownloadTriage
