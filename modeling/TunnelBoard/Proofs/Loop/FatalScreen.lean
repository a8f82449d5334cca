import Mathlib.Data.List.Induction
import TunnelBoard.Proofs.Loop.Outcome
/-
  What the answer to a reported failure tells.

  A call that reports a failure hands a message over, and then waits for the operator to leave.  It
  takes the exit for the answer to its screen.  But the loop takes messages until its queue is closed,
  and handles none once it has told how the session ends: a message that comes in between is dropped,
  and the call reads the exit that was there before.  So the answer tells whether the message was
  refused, and not whether the failure was shown (`fatal_answer`): an operator who left just before
  counts as one who has read it (`done_though_never_shown`).

  A report goes through four situations (`Reporting`): nobody has made it, a call is about to hand it
  over, and it was accepted or refused.  No act leads anywhere but from one to the next.  The message
  is in the queue only after it was accepted, and only from there does a session come to show a
  failure.

  What is shown is said of the whole run and not of its last state, since a failure that was shown may
  be gone again.  So there are words for what happened on the way (`WasShown`, `NeverShown`,
  `HandedOver`), each with a lemma that takes it one act further, and the induction over a run adds
  acts at its end.

  There is one report at most.  With two of them the answer to one could be the exit from the screen
  of the other, and none of this would hold.
-/

namespace TunnelBoard

/-- The failure that a message reports. -/
def Message.report? : Message → Option FatalReport
  | showFatal report => some report
  | _ => none

/-- The failure that a call reports. -/
def Call.report? : Call → Option FatalReport
  | showFatal report => some report
  | _ => none

/-- The failure that a call which begins reports. -/
def Act.report? : Act → Option FatalReport
  | begin c => c.report?
  | _ => none

/-- Whether an act brings in a failure that no call reports. -/
def Act.isHearsay : Act → Bool
  | move (.receive m) => m.report?.isSome
  | _ => false

/-! ## How a session comes to show a failure -/

/-- A session shows a failure because it has been told of it, and the one it has been told of. -/
theorem Session.Change.fatal_of {s s' : Session} {m : Message} {es : List Effect}
    (h : Session.Change s m s' es) (hfatal : s'.phase = .fatal) :
    s.phase = .fatal ∨ ∃ report, m = .showFatal report ∧ s'.fatal = some report := by
  cases h with
  | shown kept => exact Or.inl (kept.phase.symm.trans hfatal)
  | refreshed | fetched | switched | exited => exact Or.inl hfatal
  | picked | activated | disconnected | reconfigured => exact nomatch hfatal
  | broke =>
    rw [Session.stopMonitor_eq] at hfatal
    exact Or.inl hfatal
  | fatalShown report is => exact Or.inr ⟨report, is, rfl⟩

namespace Core

variable {c c' : Core} {told : List Event} {m : Move}

/-- Reports get into the queue from outside. -/
theorem Turn.mem_queue (ht : c.Turn m c') {n : Message} (hn : n ∈ c'.queue) {report : FatalReport}
    (hr : n.report? = some report) : n ∈ c.queue ∨ m = .receive n := by
  cases ht with
  | aside | endedOutside | appended | announced | performed | brokeDown | began | failed | left
    | finished | woke | lapsed | dropped => exact Or.inl hn
  | received =>
    rcases List.mem_append.1 hn with hn | hn
    · exact Or.inl hn
    · rw [List.mem_singleton.1 hn]
      exact Or.inr rfl
  | handled queue => exact Or.inl (queue ▸ List.mem_cons_of_mem _ hn)
  -- the loop answers itself with lines and traffic, and not with reports
  | asked effects stage asks =>
    rcases List.mem_append.1 hn with hn | hn
    · exact Or.inl hn
    · rw [List.mem_singleton.1 hn] at hr
      cases asks with
      | logs | traffic => exact nomatch hr
  | closed => exact absurd hn List.not_mem_nil
  -- what waits post are results, and the word that the session is to end
  | @posted i t wait =>
    rcases List.mem_append.1 hn with hn | hn
    · exact Or.inl hn
    · rw [List.mem_singleton.1 hn] at hr
      cases hawaited : t.awaited with
      | tick | logTick | logChange | contextEnd | ready | farewell =>
        rw [hawaited] at hr
        exact nomatch hr

/-- A session comes to show a failure when a running loop handles the report of it. -/
theorem Turn.fatal_of (ht : c.Turn m c') (hs : c.Staged) (hc : c.Course told)
    (hfatal : c'.session.phase = .fatal) :
    c.session.phase = .fatal ∨
      ∃ report, m = .handle ∧ .showFatal report ∈ c.queue ∧ c.stage = .running ∧
        c'.session.fatal = some report ∧ ∀ e ∈ told, e.isTerminal = false := by
  cases ht with
  | aside | endedOutside | appended | announced | received | performed | brokeDown | began | asked
    | failed | left | closed | finished | woke | lapsed | posted | dropped => exact Or.inl hfatal
  -- a message is handled before the end has been told, since nothing else is left to be done
  | @handled n rest queue stage effects quitting =>
    obtain ⟨hlive, hordinary⟩ := hc.live_of_idle effects quitting
    have hchange := Session.update_change (hs.session.standing hlive) hlive n
    rcases hchange.fatal_of hfatal with hbefore | ⟨report, rfl, hreport⟩
    · exact Or.inl hbefore
    · exact Or.inr ⟨report, rfl, queue ▸ List.mem_cons_self, stage, hreport, hordinary⟩

end Core

/-! ## A call that was through with its message

Once its message has been accepted or refused, a call that reports a failure does nothing but read,
and what an exit means to it has been decided.  So it is enough to remember which of the two answers
that is. -/

/-- A call that reports a failure, when its message was accepted or refused: it reads on at `stage`, and
    takes an exit for the answer `farewell`. -/
inductive Exchange.Awaits (report : FatalReport) (stage : CallStage) (farewell : Answer)
    (x : Exchange) : Prop where
  | open (call : x.call = .showFatal report) (is : x.stage = stage)
      (ordinary : ∀ e ∈ x.taken, e.isTerminal = false)
  | answered {a : Answer} (call : x.call = .showFatal report) (is : x.stage = .answered a)
      (exit : .exit ∈ x.taken → a = farewell) (done : a = .done → .exit ∈ x.taken ∧ farewell = .done)
      (told : a = .refused .sessionClosed ∨ ∃ e ∈ x.taken, e.isTerminal = true)

/-- The two ways to read on: behind a message that was accepted, and behind one that was refused. -/
inductive Reads : CallStage → Answer → Prop where
  | accepted : Reads .reading .done
  | refused : Reads .searching (.refused .userExit)

/-- What a call that reports a failure makes of the next event. -/
theorem Loop.stepCall_of_reads {l l' : Loop} {report : FatalReport} {stage next : CallStage}
    {farewell : Answer} (hreads : Reads stage farewell)
    (h : l.stepCall (.showFatal report) stage = some (next, l')) :
    (l.events.events = [] ∧ next = .answered (.refused .sessionClosed)) ∨
      ∃ e rest, l.events.events = e :: rest ∧
        ((e.isTerminal = false ∧ next = stage) ∨ (e = .exit ∧ next = .answered farewell) ∨
          ∃ cause, e = .error cause ∧ next = .answered (.refused cause)) := by
  -- behind either kind of handing over, ordinary events are passed by and the end is the answer
  cases hreads with
  | accepted =>
    simp only [stepCall, readFor] at h
    cases hevents : l.events.events with
    | nil =>
      rw [takeEvent_nil hevents] at h
      dsimp only at h
      split at h
      · cases h
        exact Or.inl ⟨rfl, rfl⟩
      · cases h
    | cons e rest =>
      rw [takeEvent_cons hevents] at h
      refine Or.inr ⟨e, rest, rfl, ?_⟩
      cases e with
      | modeSelected | reconfigure | runtimeDisconnected =>
        cases h
        exact Or.inl ⟨rfl, rfl⟩
      | exit =>
        cases h
        exact Or.inr (Or.inl ⟨rfl, rfl⟩)
      | error cause =>
        cases h
        exact Or.inr (Or.inr ⟨cause, rfl, rfl⟩)
  | refused =>
    simp only [stepCall, search] at h
    cases hevents : l.events.events with
    | nil =>
      rw [takeEvent_nil hevents] at h
      cases h
      exact Or.inl ⟨rfl, rfl⟩
    | cons e rest =>
      rw [takeEvent_cons hevents] at h
      refine Or.inr ⟨e, rest, rfl, ?_⟩
      cases e with
      | modeSelected | reconfigure | runtimeDisconnected =>
        cases h
        exact Or.inl ⟨rfl, rfl⟩
      | exit =>
        cases h
        exact Or.inr (Or.inl ⟨rfl, rfl⟩)
      | error cause =>
        cases h
        exact Or.inr (Or.inr ⟨cause, rfl, rfl⟩)

/-- A call that reads takes the first event, if there is one. -/
theorem Exchange.taken_advance {x : Exchange} (h : x.stage.reads = true) (next : CallStage) (l l' : Loop) :
    (x.advance next l l').taken = x.taken ++ l.events.events.head?.toList := by
  unfold advance
  rw [if_pos h]

/-- Such a call reads on until it is answered. -/
theorem Exchange.Awaits.advance {report : FatalReport} {stage next : CallStage} {farewell : Answer}
    {x : Exchange} {l l' : Loop} (h : x.Awaits report stage farewell) (hreads : Reads stage farewell)
    (hs : l.stepCall x.call x.stage = some (next, l')) :
    (x.advance next l l').Awaits report stage farewell := by
  cases h with
  | @answered a call is =>
    rw [is] at hs
    exact nomatch hs
  | «open» call is ordinary =>
    have hstage : x.stage.reads = true := by
      rw [is]
      cases hreads with
      | accepted | refused => rfl
    rw [call, is] at hs
    have htaken := x.taken_advance hstage next l l'
    have hbefore : Event.exit ∉ x.taken := fun hexit => nomatch ordinary .exit hexit
    rcases Loop.stepCall_of_reads hreads hs with ⟨hempty, rfl⟩ | ⟨e, rest, hevents, hmeets⟩
    · rw [hempty] at htaken
      have hnone : Event.exit ∉ (x.advance (.answered (.refused .sessionClosed)) l l').taken := by
        rw [htaken]
        exact fun hexit => hbefore (List.append_nil x.taken ▸ hexit)
      exact .answered call rfl (fun hexit => absurd hexit hnone) (fun hdone => nomatch hdone) (Or.inl rfl)
    · rw [hevents] at htaken
      have htaken : (x.advance next l l').taken = x.taken ++ [e] := htaken
      have hmem : e ∈ (x.advance next l l').taken := by
        rw [htaken]
        exact List.mem_append_right _ (List.mem_singleton_self e)
      -- an ordinary event, the exit, or another end
      rcases hmeets with ⟨he, rfl⟩ | ⟨rfl, rfl⟩ | ⟨cause, rfl, rfl⟩
      · refine .open call rfl fun f hf => ?_
        rw [htaken] at hf
        rcases List.mem_append.1 hf with hf | hf
        · exact ordinary f hf
        · exact List.mem_singleton.1 hf ▸ he
      · exact .answered call rfl (fun _ => rfl) (fun hdone => ⟨hmem, hdone⟩) (Or.inr ⟨_, hmem, rfl⟩)
      · have hnone : Event.exit ∉ (x.advance (.answered (.refused cause)) l l').taken := by
          rw [htaken]
          intro hexit
          rcases List.mem_append.1 hexit with hexit | hexit
          · exact hbefore hexit
          · exact nomatch List.mem_singleton.1 hexit
        exact .answered call rfl (fun hexit => absurd hexit hnone) (fun hdone => nomatch hdone)
          (Or.inr ⟨_, hmem, rfl⟩)

/-- To make room changes nothing but the buffer and the log. -/
theorem Loop.core_makeRoom {l l' : Loop} (h : l.makeRoom = some l') : l'.core = l.core := by
  unfold makeRoom at h
  split at h
  · split at h
    · cases h
      rfl
    · cases h
  · cases h

/-- A loop that accepts a message is not silent. -/
theorem Loop.not_silent_of_receive {l l' : Loop} {m : Message} (h : l.receive m = some l') :
    l.isSilent = false := by
  unfold receive at h
  unfold isSilent
  split at h
  · rename_i hstage
    rw [hstage]
    rfl
  · rename_i hstage
    rw [hstage]
    rfl
  · exact nomatch h
  · exact nomatch h

/-- A call that hands over a message reads on, or the loop refuses the message and it searches. -/
theorem Loop.stepCall_of_sending {l l' : Loop} {report : FatalReport} {m : Message} {next : CallStage}
    (h : l.stepCall (.showFatal report) (.sending m) = some (next, l')) :
    (next = .reading ∧ l.isSilent = false) ∨
      (next = .searching ∧ l.isSilent = true ∧ l'.isSilent = true) := by
  simp only [stepCall] at h
  cases hreceive : l.receive m with
  | some l₁ =>
    rw [hreceive] at h
    cases h
    exact Or.inl ⟨rfl, not_silent_of_receive hreceive⟩
  | none =>
    rw [hreceive] at h
    cases h
    have hsilent := isSilent_of_receive hreceive
    exact Or.inr ⟨rfl, hsilent, hsilent⟩

/-- A call that reports nothing, and has nothing of the kind to hand over. -/
structure Exchange.IsOther (x : Exchange) : Prop where
  call : x.call.report? = none
  sending : ∀ m, x.stage = .sending m → m.report? = none

/-- A call that begins without a report has none to hand over. -/
theorem Exchange.isOther_begin {c : Call} (h : c.report? = none) (l : Loop) :
    (Exchange.begin c l).IsOther := by
  refine ⟨h, fun m hm => ?_⟩
  cases c with
  | waitMode | waitExit => exact nomatch hm
  | activate =>
    cases hm
    rfl
  | showFatal => exact nomatch h

namespace Dealings

variable {d₀ d d' : Dealings} {acts : List Act} {a : Act} {report : FatalReport}

/-! ## What one act does -/

/-- A step of a call hands over the message that it is sending, or leaves the core of the loop alone. -/
theorem core_of_callStep {l l' : Loop} {c : Call} {stage next : CallStage} (h : CallStep l c stage next l') :
    l'.core = l.core ∨ ∃ m, stage = .sending m ∧ l.step (.receive m) = some l' := by
  cases h with
  | sent received => exact Or.inr ⟨_, rfl, received⟩
  | refused | closed => exact Or.inl rfl
  | took reads events hears core => exact Or.inl core

/-- What an act does to the core of the loop: nothing, or it makes a move. -/
theorem core_of_step (h : d.InOrder) (ha : a.isProper) (hs : d.step a = some d') :
    d'.loop.core = d.loop.core ∨
      ∃ m, d.loop.core.Turn m d'.loop.core ∧
        (a = .move m ∨ ∃ x n, a = .goOn ∧ m = .receive n ∧ d.current = some x ∧ x.stage = .sending n) := by
  cases a with
  | move m =>
    obtain ⟨-, l', hl, rfl⟩ := move_eq_some hs
    exact Or.inr ⟨m, Loop.turn_of_step ha hl, Or.inl rfl⟩
  | begin c =>
    obtain ⟨-, rfl⟩ := begin_eq_some hs
    exact Or.inl rfl
  | goOn =>
    obtain ⟨x, next, l', hx, hcall, rfl⟩ := goOn_eq_some hs
    obtain ⟨hloop, -, -⟩ := file_frame { d with loop := l' } (x.advance next d.loop l')
    rw [hloop]
    rcases core_of_callStep hcall with hcore | ⟨n, hstage, hreceived⟩
    · exact Or.inl hcore
    · -- the message that a call hands over is one that owners send
      have hproper : (Move.receive n).isProper = true := h.sending x hx n hstage
      exact Or.inr ⟨_, Loop.turn_of_step hproper hreceived, Or.inr ⟨x, n, rfl, rfl, hx, hstage⟩⟩
  | makeRoom =>
    obtain ⟨l', hl, rfl⟩ := Option.map_eq_some_iff.1 hs
    exact Or.inl (Loop.core_makeRoom hl)

/-- A report is in the queue because a call has handed it over. -/
theorem mem_queue_of_step (h : d.InOrder) (ha : a.isProper) (hheard : a.isHearsay = false)
    (hs : d.step a = some d') {n : Message} (hn : n ∈ d'.loop.queue) (hr : n.report? = some report) :
    n ∈ d.loop.queue ∨ ∃ x, a = .goOn ∧ d.current = some x ∧ x.stage = .sending n := by
  rcases core_of_step h ha hs with hcore | ⟨m, hturn, hact⟩
  · have hqueue : d'.loop.queue = d.loop.queue := congrArg Core.queue hcore
    exact Or.inl (hqueue ▸ hn)
  · rcases hturn.mem_queue hn hr with hold | rfl
    · exact Or.inl hold
    · rcases hact with rfl | ⟨x, n', rfl, hm, hx, hstage⟩
      · -- a move from outside may bring in a report, but then it is hearsay
        have hsome : n.report?.isSome = false := hheard
        rw [hr] at hsome
        exact nomatch hsome
      · cases hm
        exact Or.inr ⟨x, rfl, hx, hstage⟩

/-- A session comes to show a failure when a running loop handles the report of it, before the end has
    been told. -/
theorem fatal_of_step (h : d.InOrder) (ha : a.isProper) (hs : d.step a = some d')
    (hfatal : d'.loop.session.phase = .fatal) :
    d.loop.session.phase = .fatal ∨
      ∃ report, .showFatal report ∈ d.loop.queue ∧ d.loop.stage = .running ∧
        d'.loop.session.fatal = some report ∧ ∀ e ∈ d'.told, e.isTerminal = false := by
  rcases core_of_step h ha hs with hcore | ⟨m, hturn, hact⟩
  · have hsession : d'.loop.session = d.loop.session := congrArg Core.session hcore
    exact Or.inl (hsession ▸ hfatal)
  · rcases hturn.fatal_of h.staged h.course hfatal with hold | ⟨r, rfl, hqueue, hstage, hshown, hordinary⟩
    · exact Or.inl hold
    · refine Or.inr ⟨r, hqueue, hstage, hshown, ?_⟩
      rcases hact with rfl | ⟨x, n, -, hm, -⟩
      · -- to handle a message tells nothing
        have htold : d'.told = d.told := by
          obtain ⟨-, l', -, rfl⟩ := move_eq_some hs
          exact List.append_nil _
        rw [htold]
        exact hordinary
      · exact nomatch hm

/-! ## What happened on the way -/

/-- Whether a state was passed on the way. -/
def Passed (d₀ : Dealings) (acts : List Act) (d : Dealings) : Prop :=
  ∃ before after, acts = before ++ after ∧ d₀.run before = some d

/-- Whether a failure was shown when the end of the session had not been told. -/
def WasShown (d₀ : Dealings) (acts : List Act) (report : FatalReport) : Prop :=
  ∃ d, Passed d₀ acts d ∧ d.loop.session.phase = .fatal ∧ d.loop.session.fatal = some report ∧
    ∀ e ∈ d.told, e.isTerminal = false

/-- Whether no failure was ever shown. -/
def NeverShown (d₀ : Dealings) (acts : List Act) : Prop :=
  ∀ d, Passed d₀ acts d → d.loop.session.phase ≠ .fatal

/-- Whether a call came to hand over the report of a failure, to a loop that refused it or took it. -/
def HandedOver (d₀ : Dealings) (acts : List Act) (report : FatalReport) (refused : Bool) : Prop :=
  ∃ before after d x, acts = before ++ .goOn :: after ∧ d₀.run before = some d ∧ d.current = some x ∧
    x.call = .showFatal report ∧ x.stage = .sending (.showFatal report) ∧ d.loop.isSilent = refused

/-- What was passed is passed still when one more act is made. -/
theorem Passed.snoc (h : Passed d₀ acts d) (a : Act) : Passed d₀ (acts ++ [a]) d := by
  obtain ⟨before, after, rfl, hrun⟩ := h
  exact ⟨before, after ++ [a], List.append_assoc .., hrun⟩

/-- What was shown was shown still. -/
theorem WasShown.snoc (h : WasShown d₀ acts report) (a : Act) : WasShown d₀ (acts ++ [a]) report := by
  obtain ⟨d, hpassed, hshown⟩ := h
  exact ⟨d, hpassed.snoc a, hshown⟩

/-- What was handed over was handed over still. -/
theorem HandedOver.snoc {refused : Bool} (h : HandedOver d₀ acts report refused) (a : Act) :
    HandedOver d₀ (acts ++ [a]) report refused := by
  obtain ⟨before, after, d, x, rfl, hrest⟩ := h
  exact ⟨before, after ++ [a], d, x, by rw [List.append_assoc, List.cons_append], hrest⟩

/-- Nothing has been shown if it has not been until now, and is not now. -/
theorem NeverShown.snoc (h : NeverShown d₀ acts) (hrun : d₀.run (acts ++ [a]) = some d')
    (hphase : d'.loop.session.phase ≠ .fatal) : NeverShown d₀ (acts ++ [a]) := by
  rintro d ⟨before, after, hacts, hbefore⟩
  -- the state passed is the last one, or one of those before
  rcases List.eq_nil_or_concat after with rfl | ⟨rest, last, rfl⟩
  · rw [List.append_nil] at hacts
    rw [hacts, hbefore] at hrun
    cases hrun
    exact hphase
  · rw [List.concat_eq_append, ← List.append_assoc] at hacts
    obtain ⟨rfl, -⟩ := List.append_inj' hacts rfl
    exact h d ⟨before, rest, rfl, hbefore⟩

/-- The last state is one of those that were passed. -/
theorem passed_last (h : d₀.run acts = some d) : Passed d₀ acts d :=
  ⟨acts, [], (List.append_nil acts).symm, h⟩

/-- A run goes on with one more act. -/
theorem run_snoc (hrun : d₀.run acts = some d) (hs : d.step a = some d') :
    d₀.run (acts ++ [a]) = some d' := by
  rw [run_append, hrun]
  show (d.step a).bind _ = _
  rw [hs]
  rfl

/-- One more act may bring one more report. -/
theorem filterMap_report?_snoc (acts : List Act) (a : Act) :
    (acts ++ [a]).filterMap Act.report? = acts.filterMap Act.report? ++ a.report?.toList := by
  rw [List.filterMap_append, List.filterMap_cons, List.filterMap_nil]
  cases a.report? with
  | none | some => rfl

/-! ## The four situations

The report has not been made, is about to be handed over, was accepted, or was refused.  Each act
leads from one of them to the same or the next, by a lemma for each; and in the last two it is known
what becomes of the failure and of the call. -/

/-- How far the report of a failure has come, if there is at most one. -/
inductive Reporting (d₀ : Dealings) (acts : List Act) (d : Dealings) : Prop where
  /-- No call has made it. -/
  | unmade (none : acts.filterMap Act.report? = []) (calls : ∀ x ∈ d.exchanges, x.IsOther)
      (queue : ∀ m ∈ d.loop.queue, m.report? = Option.none) (never : NeverShown d₀ acts)
  /-- A call is about to hand it over. -/
  | begun {report : FatalReport} {x : Exchange} (one : acts.filterMap Act.report? = [report])
      (current : d.current = some x) (call : x.call = .showFatal report)
      (sending : x.stage = .sending (.showFatal report)) (taken : x.taken = [])
      (past : ∀ y ∈ d.past, y.IsOther) (queue : ∀ m ∈ d.loop.queue, m.report? = Option.none)
      (never : NeverShown d₀ acts)
  | accepted {report : FatalReport} (one : acts.filterMap Act.report? = [report])
      (handed : HandedOver d₀ acts report false)
      (calls : ∀ x ∈ d.exchanges, x.IsOther ∨ x.Awaits report .reading .done)
      (queue : ∀ m ∈ d.loop.queue, ∀ r, m.report? = some r → r = report)
      (shown : WasShown d₀ acts report ∨ NeverShown d₀ acts)
  | refused {report : FatalReport} (one : acts.filterMap Act.report? = [report])
      (handed : HandedOver d₀ acts report true)
      (calls : ∀ x ∈ d.exchanges, x.IsOther ∨ x.Awaits report .searching (.refused .userExit))
      (silent : d.loop.isSilent = true) (never : NeverShown d₀ acts)

/-- What is kept by the step of a call holds of all calls, if it holds of those that begin. -/
theorem forall_exchanges_of_step {P : Exchange → Prop} (hs : d.step a = some d')
    (hbegin : ∀ c, a = .begin c → P (.begin c d.loop))
    (hgoOn : ∀ x next l', d.current = some x → P x → d.loop.stepCall x.call x.stage = some (next, l') →
      P (x.advance next d.loop l'))
    (h : ∀ x ∈ d.exchanges, P x) : ∀ x ∈ d'.exchanges, P x := by
  cases a with
  | move m =>
    obtain ⟨-, l', -, rfl⟩ := move_eq_some hs
    exact h
  | begin c =>
    obtain ⟨-, rfl⟩ := begin_eq_some hs
    intro x hx
    rcases List.mem_append.1 hx with hx | hx
    · exact h x (List.mem_append_left _ hx)
    · rw [List.mem_singleton.1 hx]
      exact hbegin c rfl
  | goOn =>
    obtain ⟨x, hx, hs⟩ := Option.bind_eq_some_iff.1 hs
    obtain ⟨⟨next, l'⟩, hcall, rfl⟩ := Option.map_eq_some_iff.1 hs
    -- of all calls only the one under way changes, and it stays the last one
    obtain ⟨-, -, hcalls⟩ := file_frame { d with loop := l' } (x.advance next d.loop l')
    have hlast : x ∈ d.exchanges := List.mem_append_right _ (hx ▸ List.mem_singleton_self x)
    intro y hy
    rw [hcalls] at hy
    rcases List.mem_append.1 hy with hy | hy
    · exact h y (List.mem_append_left _ hy)
    · rw [List.mem_singleton.1 hy]
      exact hgoOn x next l' hx (h x hlast) hcall
  | makeRoom =>
    obtain ⟨l', -, rfl⟩ := Option.map_eq_some_iff.1 hs
    exact h

/-- A call that reports nothing goes on reporting nothing. -/
theorem isOther_advance (hin : d.InOrder) {x : Exchange} {next : CallStage} {l' : Loop}
    (hx : d.current = some x) (h : x.IsOther) (hs : d.loop.stepCall x.call x.stage = some (next, l')) :
    (x.advance next d.loop l').IsOther :=
  ⟨h.call, fun m hm => absurd hm ((next_of_callStep hin hx (Loop.callStep_of_stepCall hs)).1 m)⟩

/-- The call hands over its report, and the loop takes it or refuses it. -/
theorem reporting_of_sent {x : Exchange} (hrun : d₀.run acts = some d)
    (hone : (acts ++ [Act.goOn]).filterMap Act.report? = [report]) (hx : d.current = some x)
    (hcall : x.call = .showFatal report) (hsending : x.stage = .sending (.showFatal report))
    (htaken : x.taken = []) (hpast : ∀ y ∈ d.past, y.IsOther)
    (hqueue : ∀ m ∈ d'.loop.queue, ∀ r, m.report? = some r → r = report)
    (hnever : NeverShown d₀ (acts ++ [.goOn])) (hs : d.goOn = some d') :
    Reporting d₀ (acts ++ [.goOn]) d' := by
  obtain ⟨y, hy, hs⟩ := Option.bind_eq_some_iff.1 hs
  cases hx.symm.trans hy
  obtain ⟨⟨next, l'⟩, hstep, rfl⟩ := Option.map_eq_some_iff.1 hs
  obtain ⟨hloop, -, hcalls⟩ := file_frame { d with loop := l' } (x.advance next d.loop l')
  have hordinary : ∀ e ∈ (x.advance next d.loop l').taken, e.isTerminal = false := by
    have hempty : (x.advance next d.loop l').taken = [] := by
      simp only [Exchange.advance, htaken, hsending]
      rfl
    rw [hempty]
    exact fun e he => absurd he List.not_mem_nil
  have hall : ∀ {P : Exchange → Prop}, P (x.advance next d.loop l') → ∀ y ∈
      ({ d with loop := l' }.file (x.advance next d.loop l')).exchanges, y.IsOther ∨ P y := by
    intro P hP y hy
    rw [hcalls] at hy
    rcases List.mem_append.1 hy with hy | hy
    · exact Or.inl (hpast y hy)
    · exact Or.inr (List.mem_singleton.1 hy ▸ hP)
  have hhanded : HandedOver d₀ (acts ++ [.goOn]) report d.loop.isSilent :=
    ⟨acts, [], d, x, rfl, hrun, hx, hcall, hsending, rfl⟩
  rw [hcall, hsending] at hstep
  -- the queue is open, or it has been closed
  rcases Loop.stepCall_of_sending hstep with ⟨rfl, hloud⟩ | ⟨rfl, hsilent, hsilent'⟩
  · rw [hloud] at hhanded
    exact .accepted hone hhanded (hall (.open hcall rfl hordinary)) hqueue (Or.inr hnever)
  · rw [hsilent] at hhanded
    exact .refused hone hhanded (hall (.open hcall rfl hordinary)) (hloop ▸ hsilent') hnever

section

variable (hin : d.InOrder) (ha : a.isProper) (hheard : a.isHearsay = false)
  (hrun : d₀.run acts = some d) (hs : d.step a = some d')
include hin ha hrun hs

/-- Nothing is shown while no report can be handled. -/
theorem never_of_step (hnever : NeverShown d₀ acts)
    (hnone : ∀ report, .showFatal report ∈ d.loop.queue → d.loop.stage ≠ .running) :
    NeverShown d₀ (acts ++ [a]) := by
  refine hnever.snoc (run_snoc hrun hs) fun hfatal => ?_
  rcases fatal_of_step hin ha hs hfatal with hbefore | ⟨report, hqueue, hstage, -⟩
  · exact hnever d (passed_last hrun) hbefore
  · exact hnone report hqueue hstage

/-- A report that was accepted is shown, or is not. -/
theorem shown_of_step (hqueue : ∀ m ∈ d.loop.queue, ∀ r, m.report? = some r → r = report)
    (h : WasShown d₀ acts report ∨ NeverShown d₀ acts) :
    WasShown d₀ (acts ++ [a]) report ∨ NeverShown d₀ (acts ++ [a]) := by
  rcases h with hshown | hnever
  · exact Or.inl (hshown.snoc a)
  · by_cases hfatal : d'.loop.session.phase = .fatal
    · rcases fatal_of_step hin ha hs hfatal with hbefore | ⟨r, hmem, -, hreport, hordinary⟩
      · exact absurd hbefore (hnever d (passed_last hrun))
      · obtain rfl := hqueue _ hmem r rfl
        exact Or.inl ⟨d', passed_last (run_snoc hrun hs), hfatal, hreport, hordinary⟩
    · exact Or.inr (hnever.snoc (run_snoc hrun hs) hfatal)

omit hrun in
/-- A loop that is silent stays so, whatever the act. -/
theorem silent_of_step (h : d.loop.isSilent = true) : d'.loop.isSilent = true := by
  rcases core_of_step hin ha hs with hcore | ⟨m, hturn, -⟩
  · have hstage : d'.loop.stage = d.loop.stage := congrArg Core.stage hcore
    rw [Loop.isSilent_iff, hstage]
    exact Loop.isSilent_iff.1 h
  · exact Loop.isSilent_iff.2 (Core.silent_turn hturn (Loop.isSilent_iff.1 h))

include hheard

/-- Where no call has made a report, one may be begun. -/
theorem reporting_of_unmade (hnone : acts.filterMap Act.report? = [])
    (hcalls : ∀ x ∈ d.exchanges, x.IsOther) (hqueue : ∀ m ∈ d.loop.queue, m.report? = none)
    (hnever : NeverShown d₀ acts) : Reporting d₀ (acts ++ [a]) d' := by
  have hnever' := never_of_step hin ha hrun hs hnever fun report hmem =>
    nomatch hqueue (.showFatal report) hmem
  -- no call has a report to hand over, so none comes into the queue
  have hqueue' : ∀ m ∈ d'.loop.queue, m.report? = none := by
    intro m hm
    cases hr : m.report? with
    | none => rfl
    | some r =>
      rcases mem_queue_of_step hin ha hheard hs hm hr with hold | ⟨x, -, hx, hstage⟩
      · exact (hqueue m hold).symm.trans hr |>.symm
      · have hmem : x ∈ d.exchanges := List.mem_append_right _ (hx ▸ List.mem_singleton_self x)
        exact ((hcalls x hmem).sending m hstage).symm.trans hr |>.symm
  cases hreport : a.report? with
  | none =>
    refine .unmade ?_ (forall_exchanges_of_step hs (fun c hc => ?_) (fun x next l' hx hother hcall => ?_)
      hcalls) hqueue' hnever'
    · rw [filterMap_report?_snoc, hnone, hreport]
      rfl
    · subst hc
      exact Exchange.isOther_begin hreport d.loop
    · exact isOther_advance hin hx hother hcall
  | some report =>
    -- only a call that begins brings in a report
    cases a with
    | move | goOn | makeRoom => exact nomatch hreport
    | begin c =>
      cases c with
      | waitMode | waitExit | activate => exact nomatch hreport
      | showFatal r =>
        cases hreport
        obtain ⟨-, rfl⟩ := begin_eq_some hs
        refine .begun ?_ rfl rfl rfl rfl (fun y hy => hcalls y (List.mem_append_left _ hy)) hqueue'
          hnever'
        rw [filterMap_report?_snoc, hnone]
        rfl

omit hrun in
/-- Only the call that is about to hand over its report brings one into the queue. -/
theorem queue_of_begun {x : Exchange} (hx : d.current = some x)
    (hsending : x.stage = .sending (.showFatal report)) (hqueue : ∀ m ∈ d.loop.queue, m.report? = none) :
    ∀ m ∈ d'.loop.queue, ∀ r, m.report? = some r → a = .goOn ∧ r = report := by
  intro m hm r hr
  rcases mem_queue_of_step hin ha hheard hs hm hr with hold | ⟨y, hgo, hy, hstage⟩
  · exact nomatch (hqueue m hold).symm.trans hr
  · cases hx.symm.trans hy
    cases hsending.symm.trans hstage
    cases hr
    exact ⟨hgo, rfl⟩

/-- A call that is about to hand over a report does so with its next step. -/
theorem reporting_of_begun {x : Exchange} (hone : acts.filterMap Act.report? = [report])
    (hx : d.current = some x) (hcall : x.call = .showFatal report)
    (hsending : x.stage = .sending (.showFatal report)) (htaken : x.taken = [])
    (hpast : ∀ y ∈ d.past, y.IsOther) (hqueue : ∀ m ∈ d.loop.queue, m.report? = none)
    (hnever : NeverShown d₀ acts) : Reporting d₀ (acts ++ [a]) d' := by
  have hnever' := never_of_step hin ha hrun hs hnever fun report hmem =>
    nomatch hqueue (.showFatal report) hmem
  have hnew := queue_of_begun hin ha hheard hs hx hsending hqueue
  have hqueue' : a ≠ .goOn → ∀ m ∈ d'.loop.queue, m.report? = none := by
    intro hne m hm
    cases hr : m.report? with
    | none => rfl
    | some r => exact absurd (hnew m hm r hr).1 hne
  have hone' : a.report? = none → (acts ++ [a]).filterMap Act.report? = [report] := by
    intro hnone
    rw [filterMap_report?_snoc, hone, hnone]
    rfl
  -- only a step of the call brings the report on; another call cannot begin meanwhile
  cases a with
  | move m =>
    have hqueue' := hqueue' fun h => nomatch h
    obtain ⟨-, l', -, rfl⟩ := move_eq_some hs
    exact .begun (hone' rfl) hx hcall hsending htaken hpast hqueue' hnever'
  | begin c =>
    obtain ⟨hnone, -⟩ := begin_eq_some hs
    exact absurd (hx.symm.trans hnone) (Option.some_ne_none x)
  | makeRoom =>
    have hqueue' := hqueue' fun h => nomatch h
    obtain ⟨l', -, rfl⟩ := Option.map_eq_some_iff.1 hs
    exact .begun (hone' rfl) hx hcall hsending htaken hpast hqueue' hnever'
  | goOn =>
    exact reporting_of_sent hrun (hone' rfl) hx hcall hsending htaken hpast
      (fun m hm r hr => (hnew m hm r hr).2) hnever' hs

omit ha hheard hrun in
/-- The calls after a report, by one more step. -/
theorem calls_of_step {stage : CallStage} {farewell : Answer} (hreads : Reads stage farewell)
    (hnone : a.report? = none)
    (hcalls : ∀ x ∈ d.exchanges, x.IsOther ∨ x.Awaits report stage farewell) :
    ∀ x ∈ d'.exchanges, x.IsOther ∨ x.Awaits report stage farewell := by
  refine forall_exchanges_of_step hs (fun c hc => ?_) (fun x next l' hx hP hcall => ?_) hcalls
  · subst hc
    exact Or.inl (Exchange.isOther_begin hnone d.loop)
  · rcases hP with hother | hawaits
    · exact Or.inl (isOther_advance hin hx hother hcall)
    · exact Or.inr (hawaits.advance hreads hcall)

/-- One more act, with no second report. -/
theorem Reporting.step (h : Reporting d₀ acts d)
    (hone : ((acts ++ [a]).filterMap Act.report?).length ≤ 1) : Reporting d₀ (acts ++ [a]) d' := by
  -- a second report would be one too many
  have hnone : ∀ {report}, acts.filterMap Act.report? = [report] → a.report? = none := by
    intro report hacts
    cases hreport : a.report? with
    | none => rfl
    | some r =>
      rw [filterMap_report?_snoc, hacts, hreport] at hone
      have htwo : 2 ≤ 1 := hone
      exact absurd htwo (by decide)
  have hsame : ∀ {report}, acts.filterMap Act.report? = [report] →
      (acts ++ [a]).filterMap Act.report? = [report] := by
    intro report hacts
    rw [filterMap_report?_snoc, hacts, hnone hacts]
    rfl
  cases h with
  | unmade none calls queue never =>
    exact reporting_of_unmade hin ha hheard hrun hs none calls queue never
  | begun one current call sending taken past queue never =>
    exact reporting_of_begun hin ha hheard hrun hs one current call sending taken past queue never
  | @accepted report one handed calls queue shown =>
    refine .accepted (hsame one) (handed.snoc a) (calls_of_step hin hs .accepted (hnone one) calls)
      (fun m hm r hr => ?_) (shown_of_step hin ha hrun hs queue shown)
    rcases mem_queue_of_step hin ha hheard hs hm hr with hold | ⟨x, -, hx, hstage⟩
    · exact queue m hold r hr
    · -- the call under way has nothing more to hand over
      have hmem : x ∈ d.exchanges := List.mem_append_right _ (hx ▸ List.mem_singleton_self x)
      rcases calls x hmem with hother | hawaits
      · exact nomatch (hother.sending m hstage).symm.trans hr
      · cases hawaits with
        | «open» call is => exact nomatch is.symm.trans hstage
        | answered call is => exact nomatch is.symm.trans hstage
  | refused one handed calls silent never =>
    refine .refused (hsame one) (handed.snoc a) (calls_of_step hin hs .refused (hnone one) calls)
      (silent_of_step hin ha hs silent) (never_of_step hin ha hrun hs never fun report _ hstage => ?_)
    rcases Loop.isSilent_iff.1 silent with hclosed | hdone
    · exact nomatch hstage.symm.trans hclosed
    · exact nomatch hstage.symm.trans hdone

end

/-- How far the report has come after a run with one report at most. -/
theorem reporting_of_run (hin : d₀.InOrder) (hbare : d₀.exchanges = [])
    (hqueue : d₀.loop.queue = []) (hphase : d₀.loop.session.phase ≠ .fatal)
    (hp : ∀ a ∈ acts, a.isProper) (hheard : ∀ a ∈ acts, a.isHearsay = false)
    (hone : (acts.filterMap Act.report?).length ≤ 1) (hrun : d₀.run acts = some d) :
    Reporting d₀ acts d := by
  induction acts using List.reverseRecOn generalizing d with
  | nil =>
    cases hrun
    refine .unmade rfl (fun x hx => ?_) (fun m hm => ?_) ?_
    · rw [hbare] at hx
      exact absurd hx List.not_mem_nil
    · rw [hqueue] at hm
      exact absurd hm List.not_mem_nil
    · rintro d ⟨before, after, hacts, hbefore⟩
      obtain ⟨rfl, -⟩ := List.append_eq_nil_iff.1 hacts.symm
      cases hbefore
      exact hphase
  -- the last act is one more step behind the run before it
  | append_singleton acts a ih =>
    rw [run_append] at hrun
    obtain ⟨d₁, hrun₁, hlast⟩ := Option.bind_eq_some_iff.1 hrun
    obtain ⟨d₂, hs, hnil⟩ := Option.bind_eq_some_iff.1 hlast
    cases hnil
    have hfront : ∀ b ∈ acts, b ∈ acts ++ [a] := fun b hb => List.mem_append_left _ hb
    have hlastmem : a ∈ acts ++ [a] := List.mem_append_right _ (List.mem_singleton_self a)
    have hfewer : (acts.filterMap Act.report?).length ≤ 1 := by
      rw [filterMap_report?_snoc, List.length_append] at hone
      omega
    have hbefore := ih (fun b hb => hp b (hfront b hb)) (fun b hb => hheard b (hfront b hb)) hfewer hrun₁
    have hin₁ : d₁.InOrder := hin.run (fun b hb => hp b (hfront b hb)) hrun₁
    exact hbefore.step hin₁ (hp a hlastmem) (hheard a hlastmem) hrun₁ hs hone

/-- When the exit has been told, a call that was answered and is the only one has taken it. -/
theorem exit_taken_of_alone (hin : d.InOrder) (hexit : .exit ∈ d.told) {x : Exchange}
    (halone : d.exchanges = [x]) {answer : Answer} (ha : x.stage = .answered answer)
    (hended : answer = .refused .sessionClosed ∨ ∃ e ∈ x.taken, e.isTerminal = true) :
    .exit ∈ x.taken := by
  cases hin.outcome .exit hexit rfl with
  -- while the end waits in the buffer no call has met it, so this one would have no such answer
  | waiting buffer ordinary unmet =>
    have hopen := unmet x (halone ▸ List.mem_singleton_self x)
    rcases hended with rfl | ⟨e, he, hterminal⟩
    · exact absurd ha hopen.stage
    · exact nomatch (hopen.taken e he).symm.trans hterminal
  | @met before after y earlier b calls unmet taken =>
    have hy : y ∈ d.exchanges := calls ▸ List.mem_append_right _ List.mem_cons_self
    rw [halone] at hy
    rw [← List.mem_singleton.1 hy, taken]
    exact List.mem_append_right _ (List.mem_singleton_self _)

/-- **The answer to a reported failure** tells how the report was handed over.

    Of any dealings with one report, which came to an answer: if the loop had closed its queue, the
    report was refused, the failure was never shown, and an exit that the call takes makes it answer
    that the operator has left.  If the queue was open, the report was accepted, and the call answers
    that all is done when it takes an exit and not otherwise; then either the failure was shown before
    the end was told, or it was never shown.  A call that is the only one takes the exit if there is
    one. -/
theorem fatal_answer (config : Config) (prefs : Preferences) (logs : LogSource) (size : TerminalSize)
    (capacity : Nat) (store : PreferencesStore) (world : World) {x : Exchange} {answer : Answer}
    (hp : ∀ a ∈ acts, a.isProper) (hheard : ∀ a ∈ acts, a.isHearsay = false)
    (hone : acts.filterMap Act.report? = [report])
    (hrun : (start (Loop.start (Session.make config prefs logs size) capacity store world)).run acts =
      some d)
    (hx : x ∈ d.exchanges) (hcall : x.call = .showFatal report) (ha : x.stage = .answered answer) :
    let d₀ := start (Loop.start (Session.make config prefs logs size) capacity store world)
    (.exit ∈ d.told → d.exchanges = [x] → .exit ∈ x.taken) ∧
      ((HandedOver d₀ acts report false ∧ (answer = .done ↔ .exit ∈ x.taken) ∧
          (WasShown d₀ acts report ∨ NeverShown d₀ acts)) ∨
        (HandedOver d₀ acts report true ∧ answer ≠ .done ∧
          (.exit ∈ x.taken → answer = .refused .userExit) ∧ NeverShown d₀ acts)) := by
  intro d₀
  have hstart : d₀.InOrder := inOrder_start config prefs logs size capacity store world
  have hin : d.InOrder := hstart.run hp hrun
  have hphase : d₀.loop.session.phase = .configuring := by
    show (Session.init _).1.phase = _
    unfold Session.init
    split
    · rfl
    · rfl
  have hother : ¬ x.IsOther := by
    intro h
    have hnone : x.call.report? = none := h.call
    rw [hcall] at hnone
    exact nomatch hnone
  -- how far the report has come by the end of the run, which leaves four cases
  have hreporting := reporting_of_run hstart rfl rfl (by rw [hphase]; decide) hp hheard
    (by rw [hone]; exact Nat.le_refl 1) hrun
  cases hreporting with
  -- no call with a report was made yet, or the call has not handed it in: then it has no answer
  | unmade none calls => exact absurd (calls x hx) hother
  | @begun r y one current call sending taken past =>
    rcases List.mem_append.1 hx with hx | hx
    · exact absurd (past x hx) hother
    · rw [current] at hx
      rw [List.mem_singleton.1 hx, sending] at ha
      exact nomatch ha
  -- the queue was open
  | @accepted r one handed calls queue shown =>
    cases one.symm.trans hone
    rcases calls x hx with h | hawaits
    · exact absurd h hother
    · cases hawaits with
      | «open» call is => exact nomatch is.symm.trans ha
      | @answered b call is exit done told =>
        cases is.symm.trans ha
        exact ⟨fun hexit halone => exit_taken_of_alone hin hexit halone ha told,
          Or.inl ⟨handed, ⟨fun h => (done h).1, exit⟩, shown⟩⟩
  -- the queue was closed
  | @refused r one handed calls silent never =>
    cases one.symm.trans hone
    rcases calls x hx with h | hawaits
    · exact absurd h hother
    · cases hawaits with
      | «open» call is => exact nomatch is.symm.trans ha
      | @answered b call is exit done told =>
        cases is.symm.trans ha
        exact ⟨fun hexit halone => exit_taken_of_alone hin hexit halone ha told,
          Or.inr ⟨handed, fun h => (nomatch (done h).2), exit, never⟩⟩

/-- A failure to be reported. -/
def late : FatalReport := ⟨"late failure".toList, 0⟩

/-- The failure is shown, and the operator leaves from its screen. -/
def readAndLeft : List Act :=
  [.begin (.showFatal late), .goOn] ++ moves (.handle :: Loop.press .enter ++ [.perform]) ++ [.goOn]

/-- An operator who reads the report and leaves: the exit is the answer, and all is done. -/
theorem fatal_answer_of_reader :
    ∃ d x, (start Loop.specimen).run readAndLeft = some d ∧ x ∈ d.exchanges ∧
      x.stage = .answered .done ∧ .exit ∈ x.taken := by
  have hp : ∀ a ∈ readAndLeft, a.isProper := by decide
  have hheard : ∀ a ∈ readAndLeft, a.isHearsay = false := by decide
  have hone : readAndLeft.filterMap Act.report? = [late] := rfl
  have hend : (((start Loop.specimen).run readAndLeft).any fun d => d.exchanges.any fun x =>
      x.call = .showFatal late && x.stage = .answered .done) = true := by decide +kernel
  obtain ⟨d, hrun, hd⟩ := (Option.any_eq_true _ _).1 hend
  obtain ⟨x, hx, hanswer⟩ := List.any_eq_true.1 hd
  simp only [Bool.and_eq_true, decide_eq_true_eq] at hanswer
  obtain ⟨hcall, hstage⟩ := hanswer
  refine ⟨d, x, hrun, hx, hstage, ?_⟩
  rcases (fatal_answer _ _ _ _ _ _ _ hp hheard hone hrun hx hcall hstage).2 with ⟨-, hiff, -⟩ | ⟨-, hnot, -⟩
  · exact hiff.1 rfl
  · exact absurd rfl hnot

/-- The operator leaves, and the loop has told it when the report is handed over, but still takes
    messages. -/
def leftJustBefore : List Act :=
  moves (Loop.press (.char 'q') ++ [.perform]) ++ [.begin (.showFatal late), .goOn, .goOn]

/-- The call answers that all is done, and the session is over without having shown the failure. -/
theorem done_though_never_shown :
    ((start Loop.specimen).run (moves (Loop.press (.char 'q') ++ [.perform]))).any
        (fun d => d.told = [.exit] && d.exchanges = []) = true ∧
      ((start Loop.specimen).run leftJustBefore).any (fun d =>
        d.exchanges.map (·.stage) = [.answered .done] && d.loop.session.terminated &&
          d.loop.session.phase = .configuring && d.loop.session.fatal.isNone) = true := by
  decide +kernel

end Dealings
end TunnelBoard
