import TunnelBoard.Proofs.Session.Change
import TunnelBoard.Proofs.Session.Talk
/-
  What a session tells its owner keeps to the protocol.

  `Session.talk` says how far the talk has come by looking at the session alone.  It is a simulation:
  the marks that a message leaves lead the machine of allowed histories from the talk of the state
  before to the talk of the state after (`follow_marks`), so the history of any run is allowed
  (`follow_history`).  What the machine knows of histories then holds of every run.

  A mark is an event, or what the session takes of its owner's words: an activation, or a failure to
  be shown.  Most messages leave marks only by their events, and those can be read off the list of
  changes (`follow_change`).  The two words are looked at by themselves, as they leave a mark without
  telling anything.

  The rest of the protocol is about the effects themselves: how a session ends (`Finished`), and what
  its events name (`Fits`).  Both are shown for one change and then for a run, the first by induction
  from the front, since what comes before the end must not end the session (`finished_asked`), the
  second for each effect by itself (`forall_mem_asked`).
-/

namespace TunnelBoard

/-- An effect that belongs to the end of a session: the last event, or the end of the loop. -/
def Effect.isFinal : Effect → Bool
  | emit e => e.isTerminal
  | quit => true
  | _ => false

/-- What an event names is right, given the configured modes: a mode on offer, or a failure that comes
    of there being none. -/
def Effect.Fits (modes : List Mode) : Effect → Prop
  | emit (.modeSelected mode) => mode ∈ modes
  | emit (.error _) => modes = []
  | _ => True

/-- Whether a message is the wish to leave, by key or by word. -/
def Message.isLeaving : Message → Bool
  | .key k => k.action? = some .quit
  | .close => true
  | _ => false

/-- How far the talk has come in a phase of a session that goes on. -/
def Phase.talk : Phase → Talk
  | configuring => .choosing
  | waiting => .starting
  | runtime => .running
  | fatal => .failed

namespace Session

/-- How far the talk with the owner has come. -/
def talk (s : Session) : Talk := if s.terminated then .ended else s.phase.talk

/-- What a session takes of what its owner says. -/
def taken (s : Session) (m : Message) : List Mark :=
  if s.terminated then []
  else
    match m with
    | .activate _ => if s.phase = .waiting then [.activated] else []
    | .showFatal _ => [.fatalShown]
    | _ => []

/-- The marks that effects leave. -/
def spoken (es : List Effect) : List Mark := (es.filterMap Effect.event?).map .emitted

/-- The marks that a message leaves. -/
def marks (s : Session) (m : Message) : List Mark := s.taken m ++ spoken (s.update m).2.flatten

/-- The marks that some messages leave. -/
def trail (s : Session) : List Message → List Mark
  | [] => []
  | m :: ms => s.marks m ++ (s.update m).1.trail ms

/-- The history of a session from its beginning. -/
def history (config : Config) (prefs : Preferences) (logs : LogSource) (size : TerminalSize)
    (ms : List Message) : List Mark :=
  spoken (opening config prefs logs size) ++ (begun config prefs logs size).trail ms

variable {s : Session}

/-! ## The history is allowed

The phase of a session that goes on is all that has to be known of what it told before
(`talk_of_live`).  So the marks of one message are followed from the phase before it to the phase
after it, and those of a run by induction. -/

/-- An effect that is not there to tell the owner something holds no event, and does not belong to the
    end of the session either. -/
theorem quiet_of_kind {e : Effect} (h : e.kind ≠ .told) : e.event? = none ∧ e.isFinal = false := by
  cases e with
  | emit | quit => exact absurd rfl h
  | clearScreen | savePreferences | scheduleTick | scheduleLogTick | watchLog | fetchLogs
    | sampleTraffic | awaitContextEnd | awaitReady => exact ⟨rfl, rfl⟩

/-- Effects that tell nothing leave no marks. -/
theorem spoken_eq_nil {es : List Effect} (h : ∀ e ∈ es, e.kind ≠ .told) : spoken es = [] := by
  have hnone : es.filterMap Effect.event? = [] :=
    List.filterMap_eq_nil_iff.2 fun e he => (quiet_of_kind (h e he)).1
  rw [spoken, hnone]
  rfl

/-- A round tells nothing. -/
theorem spoken_round (r : Monitor) : spoken r.round = [] :=
  spoken_eq_nil fun _ he => by rw [kind_of_mem_round he]; decide

/-- Neither do the waits of an activation. -/
theorem spoken_waits (a : Activation) (seq : Nat) : spoken (a.waits seq) = [] :=
  spoken_eq_nil fun _ he => by rw [kind_of_mem_waits he]; decide

/-- What is spoken in two pieces of a run is spoken in the order of the pieces. -/
theorem spoken_append (es fs : List Effect) : spoken (es ++ fs) = spoken es ++ spoken fs := by
  rw [spoken, spoken, spoken, List.filterMap_append, List.map_append]

/-- While a session goes on, its phase says how far the talk has come. -/
theorem talk_of_live (ht : s.terminated = false) : s.talk = s.phase.talk := by
  rw [talk, if_neg (by rw [ht]; decide)]

/-- Where the talk is after marks that lead to a session that goes on. -/
theorem eq_talk {o : Option Talk} (ht : s.terminated = false) (h : o = some s.phase.talk) :
    o = some s.talk := by rw [h, talk_of_live ht]

/-- An activation is allowed, and taken, where a data plane was waited for. -/
theorem follow_activate (ht : s.terminated = false) (a : Activation) :
    s.talk.follow (s.marks (.activate a)) = some (s.update (.activate a)).1.talk := by
  have hlive : ¬ s.terminated = true := by rw [ht]; decide
  unfold marks taken update activate
  rw [if_neg hlive, if_neg hlive]
  dsimp only
  by_cases hp : s.phase = .waiting
  · rw [if_pos hp, if_neg (not_not.2 hp), talk_of_live ht, hp]
    refine eq_talk ht ?_
    dsimp only
    rw [Monitor.flatten_start, spoken_append, spoken_waits, spoken_round]
    rfl
  · rw [if_neg hp, if_pos hp]
    rfl

/-- A failure may be shown in every phase, and nothing but the end is told after it. -/
theorem follow_showFatal (ht : s.terminated = false) (report : FatalReport) :
    s.talk.follow (s.marks (.showFatal report)) = some (s.update (.showFatal report)).1.talk := by
  have hlive : ¬ s.terminated = true := by rw [ht]; decide
  unfold marks taken update showFatal
  rw [if_neg hlive, if_neg hlive, talk_of_live ht]
  dsimp only
  rw [stopMonitor_eq]
  refine eq_talk ht ?_
  cases s.phase with
  | configuring | waiting | runtime | fatal => rfl

/-- Whatever else a message does is allowed too. -/
theorem follow_change {m : Message} {s' : Session} {es : List Effect} (h : Change s m s' es)
    (ht : s.terminated = false) (ha : ∀ a, m ≠ .activate a) (hf : ∀ report, m ≠ .showFatal report) :
    s.talk.follow (spoken es) = some s'.talk := by
  rw [talk_of_live ht]
  -- one case for each kind of change: where the phase stays, the marks lead back to it
  cases h with
  | shown kept silent =>
    refine eq_talk (kept.terminated.trans ht) ?_
    rw [spoken_eq_nil fun e he => by rw [silent e he]; decide, kept.phase]
    rfl
  | picked mode mem phase =>
    refine eq_talk ht ?_
    rw [phase]
    rfl
  | refreshed | switched =>
    refine eq_talk ht ?_
    rw [spoken_round]
    rfl
  | fetched => exact eq_talk ht rfl
  | activated a is => exact absurd is (ha a)
  | fatalShown report is => exact absurd is (hf report)
  | disconnected phase =>
    unfold disconnect
    rw [stopMonitor_eq, phase]
    exact eq_talk ht rfl
  | reconfigured picker phase =>
    rw [stopMonitor_eq, phase]
    exact eq_talk ht rfl
  | broke e modes phase =>
    rw [phase]
    rfl
  | exited =>
    cases s.phase with
    | configuring | waiting | runtime | fatal => rfl

/-- The marks of a message lead from one talk to the next. -/
theorem follow_marks (h : s.terminated = false → s.Standing) (m : Message) :
    s.talk.follow (s.marks m) = some (s.update m).1.talk := by
  cases ht : s.terminated with
  -- a session that is over takes nothing and says nothing
  | true =>
    unfold marks taken
    rw [if_pos ht, update_of_terminated ht, Command.flatten_none]
    rfl
  | false =>
    have hchange := update_change (h ht) ht m
    cases m with
    | activate a => exact follow_activate ht a
    | showFatal report => exact follow_showFatal ht report
    | key | resize | contextEnded | result | preferencesChanged | close =>
      unfold marks taken
      rw [if_neg (by rw [ht]; decide)]
      exact follow_change hchange ht (fun _ h => nomatch h) (fun _ h => nomatch h)

/-- The marks of any messages lead from one talk to the next. -/
theorem follow_trail (h : s.terminated = false → s.Standing) (ms : List Message) :
    s.talk.follow (s.trail ms) = some (s.after ms).talk := by
  induction ms generalizing s with
  | nil => rfl
  | cons m ms ih =>
    -- a session in order stays so for as long as it goes on
    have hnext : (s.update m).1.terminated = false → (s.update m).1.Standing := fun ht =>
      (h (not_terminated_of_update ht)).update m ht
    exact Talk.follow_append_eq_some.2 ⟨_, follow_marks h m, ih hnext⟩

/-- The history of a session is allowed, from its opening on. -/
theorem follow_history (config : Config) (prefs : Preferences) (logs : LogSource)
    (size : TerminalSize) (ms : List Message) :
    Talk.choosing.follow (history config prefs logs size ms) =
      some ((begun config prefs logs size).after ms).talk := by
  refine Talk.follow_append_eq_some.2 ⟨_, ?_, follow_trail standing_begun ms⟩
  -- the opening says nothing, or that the session failed to start
  rcases begun_cases config prefs logs size with ⟨ht, hp, hopening⟩ | ⟨ht, -, e, hopening⟩
  · rw [hopening, talk_of_live ht, hp]
    rfl
  · rw [hopening, talk, if_pos ht]
    rfl

/-! ## The effects of a run -/

/-- What holds of the effects of every message holds of those of a run, for a session with these
    modes. -/
theorem forall_mem_asked {P : Effect → Prop} {modes : List Mode}
    (step : ∀ (s : Session) m, s.Standing → s.terminated = false → s.modes = modes →
      ∀ e ∈ (s.update m).2.flatten, P e)
    (h : s.terminated = false → s.Standing) (hm : s.modes = modes) (ms : List Message) :
    ∀ e ∈ s.asked ms, P e := by
  induction ms generalizing s with
  | nil => exact fun _ he => absurd he List.not_mem_nil
  | cons m ms ih =>
    intro e he
    cases ht : s.terminated with
    | true =>
      rw [asked, update_of_terminated ht, Command.flatten_none, List.nil_append] at he
      exact ih h hm e he
    | false =>
      have hnext : (s.update m).1.terminated = false → (s.update m).1.Standing :=
        (h ht).update m
      -- the modes are those of the start, however many messages have come
      have hmodes : (s.update m).1.modes = modes :=
        (update_change (h ht) ht m).constants.1.trans hm
      rcases List.mem_append.1 he with he | he
      · exact step s m (h ht) ht hm e he
      · exact ih hnext hmodes e he

/-- An effect that tells nothing names nothing. -/
theorem fits_of_kind {modes : List Mode} {e : Effect} (h : e.kind ≠ .told) : e.Fits modes := by
  cases e with
  | emit | quit => exact absurd rfl h
  | clearScreen | savePreferences | scheduleTick | scheduleLogTick | watchLog | fetchLogs
    | sampleTraffic | awaitContextEnd | awaitReady => trivial

/-- What the events of a message name is right. -/
theorem fits_of_change {m : Message} {s' : Session} {es : List Effect} (h : Change s m s' es) :
    ∀ e ∈ es, e.Fits s.modes := by
  intro e he
  -- a mode is named by a choice, and an error by a session that has nothing to choose from
  cases h with
  | shown kept silent => exact fits_of_kind (by rw [silent e he]; decide)
  | picked mode mem =>
    rw [List.mem_singleton.1 he]
    exact mem
  | refreshed | switched => exact fits_of_kind (by rw [kind_of_mem_round he]; decide)
  | fetched | fatalShown => exact absurd he List.not_mem_nil
  | activated a =>
    rcases List.mem_append.1 he with he | he
    · exact fits_of_kind (by rw [kind_of_mem_waits he]; decide)
    · exact fits_of_kind (by rw [kind_of_mem_round he]; decide)
  | disconnected | reconfigured =>
    rw [List.mem_singleton.1 he]
    trivial
  | broke _ modes =>
    rcases List.mem_cons.1 he with rfl | he
    · exact modes
    · rw [List.mem_singleton.1 he]
      trivial
  | exited =>
    rcases List.mem_cons.1 he with rfl | he
    · trivial
    · rw [List.mem_singleton.1 he]
      trivial

/-! ## The end

A session that is over asks for nothing any more, and what one that goes on asks for tells no end.  So
the end is the work of one message, or of the opening. -/

/-- How effects end a session that is over in the end: with one last event, directly followed by the
    end of the loop.  While the session goes on there is neither. -/
def Finished (ended : Bool) (es : List Effect) : Prop :=
  if ended then
    ∃ before e, es = before ++ [.emit e, .quit] ∧ e.isTerminal ∧ ∀ x ∈ before, x.isFinal = false
  else ∀ x ∈ es, x.isFinal = false

/-- A last event and the end of the loop. -/
theorem finished_farewell {e : Event} (h : e.isTerminal) : Finished true [.emit e, .quit] :=
  ⟨[], e, rfl, h, fun _ hx => absurd hx List.not_mem_nil⟩

/-- While a session goes on, its effects end nothing. -/
theorem finished_of_live (ht : s.terminated = false) {es : List Effect}
    (h : ∀ e ∈ es, e.isFinal = false) : Finished s.terminated es := by
  rw [ht]
  exact h

/-- A change ends the session in due form, or not at all. -/
theorem finished_of_change {m : Message} {s' : Session} {es : List Effect} (h : Change s m s' es)
    (ht : s.terminated = false) : Finished s'.terminated es := by
  -- only the last two end the session, and each of them takes leave
  cases h with
  | shown kept silent =>
    exact finished_of_live (kept.terminated.trans ht) fun e he =>
      (quiet_of_kind (by rw [silent e he]; decide)).2
  | refreshed | switched =>
    exact finished_of_live ht fun e he =>
      (quiet_of_kind (by rw [kind_of_mem_round he]; decide)).2
  | activated a =>
    refine finished_of_live ht fun e he => (quiet_of_kind ?_).2
    rcases List.mem_append.1 he with he | he
    · rw [kind_of_mem_waits he]
      decide
    · rw [kind_of_mem_round he]
      decide
  | fetched => exact finished_of_live ht fun e he => absurd he List.not_mem_nil
  | fatalShown =>
    unfold showFatal
    rw [stopMonitor_eq]
    exact finished_of_live ht fun e he => absurd he List.not_mem_nil
  | picked =>
    refine finished_of_live ht fun e he => ?_
    rw [List.mem_singleton.1 he]
    rfl
  | disconnected =>
    unfold disconnect
    rw [stopMonitor_eq]
    refine finished_of_live ht fun e he => ?_
    rw [List.mem_singleton.1 he]
    rfl
  | reconfigured =>
    rw [stopMonitor_eq]
    refine finished_of_live ht fun e he => ?_
    rw [List.mem_singleton.1 he]
    rfl
  | broke => exact finished_farewell rfl
  | exited => exact finished_farewell rfl

/-- What comes before the end of a session does not end it. -/
theorem Finished.prepend {ended : Bool} {es fs : List Effect} (hes : ∀ e ∈ es, e.isFinal = false)
    (h : Finished ended fs) : Finished ended (es ++ fs) := by
  cases ended with
  | true =>
    obtain ⟨before, e, rfl, he, hbefore⟩ := h
    refine ⟨es ++ before, e, (List.append_assoc ..).symm, he, fun x hx => ?_⟩
    rcases List.mem_append.1 hx with hx | hx
    · exact hes x hx
    · exact hbefore x hx
  | false =>
    intro x hx
    rcases List.mem_append.1 hx with hx | hx
    · exact hes x hx
    · exact h x hx

/-- A session that is over asks for nothing any more. -/
theorem asked_of_terminated (ht : s.terminated = true) (ms : List Message) : s.asked ms = [] := by
  induction ms with
  | nil => rfl
  | cons m ms ih =>
    rw [asked, update_of_terminated ht, Command.flatten_none, List.nil_append]
    exact ih

/-- A run ends the session in due form, or not at all. -/
theorem finished_asked (h : s.Standing) (ht : s.terminated = false) (ms : List Message) :
    Finished (s.after ms).terminated (s.asked ms) := by
  induction ms generalizing s with
  | nil => exact finished_of_live ht fun e he => absurd he List.not_mem_nil
  | cons m ms ih =>
    have hfirst := finished_of_change (update_change h ht m) ht
    cases hnext : (s.update m).1.terminated with
    -- the first message ends it, and nothing is asked for afterwards
    | true =>
      rw [after_cons, asked, after_of_terminated hnext, asked_of_terminated hnext, List.append_nil]
      exact hfirst
    | false =>
      rw [hnext] at hfirst
      exact (ih (h.update m hnext) hnext).prepend hfirst

/-- The wish to leave ends every session that goes on, and does nothing else. -/
theorem flatten_of_isLeaving (ht : s.terminated = false) {m : Message} (hm : m.isLeaving) :
    (s.update m).2.flatten = [.emit .exit, .quit] := by
  have hexit : s.exit.2.flatten = [.emit .exit, .quit] := flatten_farewell .exit
  unfold update
  rw [if_neg (by rw [ht]; decide)]
  cases m with
  | key k =>
    have hk : k.action? = some .quit := of_decide_eq_true hm
    simp only [hk, handleAction]
    cases s.phase with
    | configuring | waiting | runtime | fatal => exact hexit
  | close => exact hexit
  | resize | activate | contextEnded | result | showFatal | preferencesChanged => exact nomatch hm

/-! ## The protocol

Once a history is known to be allowed, the rest is read off the talk: the order of the words, what
stands between two choices, and what may follow a failure.  Which mode or attempt an event names, and
how the effects end, has been followed from message to message. -/

/-- The protocol between a session and its owner, for a session that is in state `s` after it left the
    marks `h` and asked for the effects `es`. -/
structure Orderly (config : Config) (s : Session) (h : List Mark) (es : List Effect) : Prop where
  /-- The history has the events of the effects. -/
  events : h.filterMap Mark.event? = es.filterMap Effect.event?
  conversation : es.filterMap Effect.event? ∈ Talk.conversation
  /-- A mode is not picked again before the wish to choose again. -/
  choice : ∀ before between rest mode mode',
    h = before ++ .emitted (.modeSelected mode) :: between ++ .emitted (.modeSelected mode') :: rest →
    .emitted .reconfigure ∈ between
  /-- After an activation is taken and before the next one is, the session parts with the data plane
      once at most. -/
  parting : ∀ before between rest, h = before ++ .activated :: between ++ rest →
    .activated ∉ between → between.countP Mark.isParting ≤ 1
  /-- After a failure is shown nothing but the end is told. -/
  failure : ∀ before rest e, h = before ++ .fatalShown :: rest → .emitted e ∈ rest → e.isTerminal
  /-- The end is told once, directly before the loop is ended, and nothing comes after that. -/
  ending : Finished s.terminated es
  silence : s.terminated = true → ∀ m, s.update m = (s, .none)
  offered : ∀ mode, .emit (.modeSelected mode) ∈ es → mode ∈ config.modes
  sound : config.modes ≠ [] → ∀ e, .emit (.error e) ∉ es
  /-- The wish to leave is granted wherever the session is. -/
  leaving : s.terminated = false → ∀ m : Message, m.isLeaving →
    (s.update m).2.flatten = [.emit .exit, .quit]

/-- The marks of effects are their events. -/
theorem event?_spoken (es : List Effect) :
    (spoken es).filterMap Mark.event? = es.filterMap Effect.event? := by
  rw [spoken, List.filterMap_map]
  exact List.filterMap_some

/-- What a session takes of its owner's words is no event. -/
theorem event?_taken (s : Session) (m : Message) : (s.taken m).filterMap Mark.event? = [] := by
  unfold taken
  split
  · rfl
  · split
    · split
      · rfl
      · rfl
    · rfl
    · rfl

/-- The events of a trail are those that were asked for. -/
theorem event?_trail (s : Session) (ms : List Message) :
    (s.trail ms).filterMap Mark.event? = (s.asked ms).filterMap Effect.event? := by
  induction ms generalizing s with
  | nil => rfl
  | cons m ms ih =>
    rw [trail, asked, marks, List.filterMap_append, List.filterMap_append, List.filterMap_append,
      event?_taken, event?_spoken, ih, List.nil_append]

/-- An opening that ends a session ends it in due form, too. -/
theorem finished_opening (config : Config) (prefs : Preferences) (logs : LogSource)
    (size : TerminalSize) : Finished (begun config prefs logs size).terminated
      (opening config prefs logs size) := by
  rcases begun_cases config prefs logs size with ⟨ht, -, hopening⟩ | ⟨ht, -, e, hopening⟩
  · rw [ht, hopening]
    exact fun e he => absurd he List.not_mem_nil
  · rw [ht, hopening]
    exact finished_farewell rfl

/-- The only event of an opening is that there are no modes. -/
theorem fits_opening (config : Config) (prefs : Preferences) (logs : LogSource)
    (size : TerminalSize) : ∀ e ∈ opening config prefs logs size, e.Fits config.modes := by
  intro e he
  rcases begun_cases config prefs logs size with ⟨-, -, hopening⟩ | ⟨-, hmodes, cause, hopening⟩
  · rw [hopening] at he
    exact absurd he List.not_mem_nil
  · rw [hopening] at he
    rcases List.mem_cons.1 he with rfl | he
    · exact hmodes
    · rw [List.mem_singleton.1 he]
      trivial

/-- The events of a history are those that were asked for, from the opening on. -/
theorem event?_history (config : Config) (prefs : Preferences) (logs : LogSource)
    (size : TerminalSize) (ms : List Message) :
    (history config prefs logs size ms).filterMap Mark.event? =
      (opening config prefs logs size ++ (begun config prefs logs size).asked ms).filterMap
        Effect.event? := by
  rw [history, List.filterMap_append, event?_spoken, event?_trail, List.filterMap_append]

/-- What the events of a run name is right, from the opening on. -/
theorem fits_of_run (config : Config) (prefs : Preferences) (logs : LogSource) (size : TerminalSize)
    (ms : List Message) :
    ∀ e ∈ opening config prefs logs size ++ (begun config prefs logs size).asked ms,
      e.Fits config.modes := by
  intro e he
  rcases List.mem_append.1 he with he | he
  · exact fits_opening config prefs logs size e he
  · refine forall_mem_asked (fun s m hs ht hm e he => ?_) standing_begun
      (begun_frame config prefs logs size).2.2.1 ms e he
    exact hm ▸ fits_of_change (update_change hs ht m) e he

/-- A session that fails to start is over with its opening, and any other one later. -/
theorem finished_of_run (config : Config) (prefs : Preferences) (logs : LogSource)
    (size : TerminalSize) (ms : List Message) :
    Finished ((begun config prefs logs size).after ms).terminated
      (opening config prefs logs size ++ (begun config prefs logs size).asked ms) := by
  have hfirst := finished_opening config prefs logs size
  cases ht : (begun config prefs logs size).terminated with
  | true =>
    rw [after_of_terminated ht, asked_of_terminated ht, List.append_nil]
    exact hfirst
  | false =>
    rw [ht] at hfirst
    exact (finished_asked (standing_begun ht) ht ms).prepend hfirst

/-- **The protocol.** Whatever a session is made of and whatever messages it gets, what it tells its
    owner is in order. -/
theorem keeps_to_the_protocol (config : Config) (prefs : Preferences) (logs : LogSource)
    (size : TerminalSize) (ms : List Message) :
    Orderly config ((begun config prefs logs size).after ms) (history config prefs logs size ms)
      (opening config prefs logs size ++ (begun config prefs logs size).asked ms) := by
  have hfollow := follow_history config prefs logs size ms
  have hevents := event?_history config prefs logs size ms
  have hfits := fits_of_run config prefs logs size ms
  constructor
  case events => exact hevents
  case conversation => exact hevents ▸ Talk.mem_conversation_of_follow hfollow
  case choice =>
    intro before between rest mode mode' h
    exact Talk.reconfigure_mem_of_follow (h ▸ hfollow)
  case parting =>
    intro before between rest h hbetween
    -- the activation itself belongs to the marks in front of the stretch
    have hsplit : before ++ .activated :: between ++ rest =
        before ++ [.activated] ++ between ++ rest := by simp
    rw [h, hsplit] at hfollow
    exact Talk.countP_isParting_le_one hfollow hbetween
  case failure =>
    intro before rest e h he
    exact Talk.isTerminal_of_follow (h ▸ hfollow) he
  case ending => exact finished_of_run config prefs logs size ms
  case silence => exact fun ht m => update_of_terminated ht m
  case offered => exact fun mode hmode => hfits _ hmode
  case sound => exact fun hmodes e he => hmodes (hfits _ he)
  case leaving => exact fun ht m hm => flatten_of_isLeaving ht hm

end Session
end TunnelBoard
