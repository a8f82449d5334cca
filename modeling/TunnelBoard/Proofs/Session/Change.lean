import TunnelBoard.Proofs.Monitor.Chain
import TunnelBoard.Proofs.Session.Standing
/-
  What one message can do to a session.

  The reducer has four phases, tables of keys for each of them and for every screen, and results that
  may be out of date; but what comes of a message is one of eleven things, and `Change` lists them:
  the new state, and the effects in the order they are carried out.  `update_change` says that the
  list is complete.  Whoever follows a session through a run takes the eleven cases from there.

  Most of the cases are `shown`: nothing that matters to tasks or to the owner changes.  That case
  says as well what the message was not (`unheeded`, `dropped`), for a timer or an answer that is
  still wanted never goes by unheard.

  The list is for a session in order that goes on (`Standing`).  That it is in order is needed in a
  few places only: a mode is picked from a picker that is there, a key for the monitor finds one, and
  a result is taken by the monitor whose number it carries.
-/

namespace TunnelBoard

/-- What effects are for. -/
inductive EffectKind where
  /-- To tell the owner something, or to end the loop. -/
  | told
  /-- To bring the screen or the file of preferences up to date. -/
  | silent
  /-- To keep a screen fresh. -/
  | round
  /-- To watch over a data plane. -/
  | vigil
  deriving DecidableEq

/-- What an effect is for. -/
def Effect.kind : Effect → EffectKind
  | emit _ | quit => .told
  | clearScreen | savePreferences _ => .silent
  | scheduleTick .. | scheduleLogTick .. | watchLog .. | fetchLogs .. | sampleTraffic .. => .round
  | awaitContextEnd .. | awaitReady .. => .vigil

/-- The waits that an activation begins with: for its end, and for its data plane to be up. -/
def Activation.waits (a : Activation) (seq : Nat) : List Effect :=
  .awaitContextEnd seq a.context (Token.ofScope (.activation seq)) ::
    (a.ready.map fun signal => .awaitReady seq signal (Token.ofScope (.activation seq))).toList

/-- A monitor starts with the waits of its activation, followed by its first round. -/
theorem Monitor.flatten_start (seq : Nat) (a : Activation) (prefs : Preferences) (logs : LogSource)
    (settings : DashboardConfig) (size : TerminalSize) :
    (Monitor.start seq a prefs logs settings size).2.flatten =
      a.waits seq ++ (Monitor.start seq a prefs logs settings size).1.round := by
  refine (Command.flatten_ofList _).trans ?_
  rw [List.flatMap_append, List.flatMap_cons, Command.flatten_one, List.flatMap_singleton]
  congr 1
  · unfold Activation.waits
    cases a.ready with
    | none => rfl
    | some signal => rfl
  · refine (Command.flatten_ofList _).trans ?_
    rw [List.flatMap_cons, List.flatMap_singleton]
    rfl

namespace Session

/-- Two states of a session that differ in what is shown only. -/
structure Kept (s s' : Session) : Prop where
  phase : s'.phase = s.phase
  terminated : s'.terminated = s.terminated
  activationSeq : s'.activationSeq = s.activationSeq
  ended : s'.ended = s.ended
  modes : s'.modes = s.modes
  logs : s'.logs = s.logs
  settings : s'.settings = s.settings
  monitor : Option.Rel Monitor.SameTasks s.monitor s'.monitor

/-- What a message can do to a session that goes on. -/
inductive Change (s : Session) (m : Message) : Session → List Effect → Prop where
  /-- Nothing changes but what is shown. -/
  | shown {s' : Session} {es : List Effect} (kept : s.Kept s') (silent : ∀ e ∈ es, e.kind = .silent)
      (saving : ∀ p, .savePreferences p ∈ es → ∃ r, s.monitor = some r ∧ r.screen = .settings)
      (unheeded : ∀ c : Chain, ∀ r, s.monitor = some r → c.ofMessage? m = some (c.link r) →
        r.screen ≠ c.home)
      (dropped : ∀ r lines, s.monitor = some r → m ≠ .result r.seq (.logsFetched r.logSeq lines)) :
      Change s m s' es
  /-- A mode is picked. -/
  | picked (mode : Mode) (mem : mode ∈ s.modes) (phase : s.phase = .configuring) :
      Change s m { s with phase := .waiting, pendingMode := some mode } [.emit (.modeSelected mode)]
  /-- A timer of the screen that shows leads to the next round. -/
  | refreshed {r : Monitor} (c : Chain) (monitor : s.monitor = some r)
      (timer : c.ofMessage? m = some (c.link r)) (home : r.screen = c.home) :
      Change s m s r.round
  /-- Log lines come in. -/
  | fetched {r : Monitor} (lines : List Text) (monitor : s.monitor = some r)
      (answer : m = .result r.seq (.logsFetched r.logSeq lines)) :
      Change s m { s with monitor := some (r.showLines lines) } []
  /-- The operator goes to another screen. -/
  | switched {r : Monitor} (target : Screen) (monitor : s.monitor = some r)
      (other : target ≠ r.screen) :
      Change s m { s with monitor := some (r.switchScreen target).1 }
        (r.switchScreen target).1.round
  /-- The data plane that was waited for is there. -/
  | activated {r : Monitor} (a : Activation) (is : m = .activate a) (phase : s.phase = .waiting)
      (start : r = (Monitor.start (s.activationSeq + 1) a s.prefs s.logs s.settings s.size).1) :
      Change s m
        { s with
          activationSeq := s.activationSeq + 1
          monitor := some r
          phase := .runtime
          lastMode := some a.mode
          pendingMode := none }
        (a.waits (s.activationSeq + 1) ++ r.round)
  | disconnected (phase : s.phase = .runtime) (is : m = .contextEnded s.activationSeq) :
      Change s m s.disconnect.1 [.emit .runtimeDisconnected]
  /-- The operator wants to choose again. -/
  | reconfigured (picker : ModePicker) (phase : s.phase = .runtime) :
      Change s m { s.stopMonitor with picker := some picker, phase := .configuring }
        [.emit .reconfigure]
  /-- The operator wants to choose again, and there is nothing to choose from. -/
  | broke (e : SessionError) (modes : s.modes = []) (phase : s.phase = .runtime) :
      Change s m { s.stopMonitor with terminated := true } [.emit (.error e), .quit]
  | fatalShown (report : FatalReport) (is : m = .showFatal report) :
      Change s m (s.showFatal report).1 []
  | exited : Change s m s.exit.1 [.emit .exit, .quit]

variable {s : Session} {m : Message}

/-- A last event is followed by the end of the loop. -/
theorem flatten_farewell (e : Event) : (farewell e).flatten = [.emit e, .quit] := by
  simp [farewell]

/-! ## The beginning -/

variable (config : Config) (prefs : Preferences) (logs : LogSource) (size : TerminalSize)

/-- A session begins with a mode to pick and asks for nothing, or it has no mode to offer and ends. -/
theorem begun_cases :
    ((begun config prefs logs size).terminated = false ∧
      (begun config prefs logs size).phase = .configuring ∧ opening config prefs logs size = []) ∨
    ((begun config prefs logs size).terminated = true ∧ config.modes = [] ∧
      ∃ e, opening config prefs logs size = [.emit (.error e), .quit]) := by
  unfold opening begun init
  cases hp : ModePicker.make config.modes none with
  | ok p =>
    simp only [make, hp]
    exact Or.inl ⟨trivial, trivial, Command.flatten_none⟩
  | error e =>
    simp only [make, hp]
    exact Or.inr ⟨trivial, ModePicker.eq_nil_of_make_error hp, e, flatten_farewell _⟩

/-- At its beginning a session has no monitor yet, and nothing of it has ended. -/
theorem begun_frame :
    (begun config prefs logs size).monitor = none ∧ (begun config prefs logs size).ended = [] ∧
      (begun config prefs logs size).modes = config.modes ∧
      (begun config prefs logs size).logs = logs ∧
      (begun config prefs logs size).settings = config.dashboard ∧
      (begun config prefs logs size).activationSeq = 0 := by
  unfold begun init
  split
  · exact ⟨rfl, rfl, rfl, rfl, rfl, rfl⟩
  · exact ⟨rfl, rfl, rfl, rfl, rfl, rfl⟩

/-! ## What is shown only -/

/-- A session is shown as it was. -/
theorem Kept.refl (s : Session) : s.Kept s := by
  refine ⟨rfl, rfl, rfl, rfl, rfl, rfl, rfl, ?_⟩
  cases s.monitor with
  | none => exact .none
  | some r => exact .some (Monitor.SameTasks.refl r)

/-- A monitor may be exchanged for one with the same tasks. -/
theorem Kept.withMonitor {r r' : Monitor} (hr : s.monitor = some r) (same : r.SameTasks r')
    (prefs : Preferences) : s.Kept { s with prefs, monitor := some r' } := by
  refine ⟨rfl, rfl, rfl, rfl, rfl, rfl, rfl, ?_⟩
  rw [hr]
  exact .some same

/-- Where there was no monitor there is none. -/
theorem Kept.monitor_eq_none {s' : Session} (h : s.Kept s') (hr : s.monitor = none) :
    s'.monitor = none := by
  have hrel := h.monitor
  rw [hr] at hrel
  cases hr' : s'.monitor with
  | none => rfl
  | some r' =>
    rw [hr'] at hrel
    exact nomatch hrel

/-- Where there was one, there is one with the same tasks. -/
theorem Kept.exists_monitor {s' : Session} (h : s.Kept s') {r : Monitor} (hr : s.monitor = some r) :
    ∃ r', s'.monitor = some r' ∧ r.SameTasks r' := by
  have hrel := h.monitor
  rw [hr] at hrel
  cases hr' : s'.monitor with
  | none =>
    rw [hr'] at hrel
    exact nomatch hrel
  | some r' =>
    rw [hr'] at hrel
    cases hrel with
    | some same => exact ⟨r', rfl, same⟩

/-- What is no result is shown only, if it keeps the tasks and its effects are silent. -/
theorem Change.of_kept {s' : Session} {es : List Effect} (hm : ∀ seq result, m ≠ .result seq result)
    (kept : s.Kept s') (silent : ∀ e ∈ es, e.kind = .silent)
    (saving : ∀ p, .savePreferences p ∈ es → ∃ r, s.monitor = some r ∧ r.screen = .settings) :
    Change s m s' es := by
  refine .shown kept silent saving (fun c r _ hc _ => ?_) (fun r lines _ => hm _ _)
  cases m with
  | result seq result => exact hm _ _ rfl
  | key | resize | activate | contextEnded | showFatal | preferencesChanged | close =>
    cases c with
    | ticks | logs => exact nomatch hc

/-- What asks for nothing at all saves nothing. -/
theorem Change.of_quiet {s' : Session} (hm : ∀ seq result, m ≠ .result seq result)
    (kept : s.Kept s') : Change s m s' [] :=
  .of_kept hm kept (fun _ he => absurd he List.not_mem_nil) (fun _ he => absurd he List.not_mem_nil)

/-- A new size is a matter of what is shown. -/
theorem kept_resize (s : Session) (size : TerminalSize) :
    s.Kept { s with size, monitor := s.monitor.map (·.resize size) } := by
  refine ⟨rfl, rfl, rfl, rfl, rfl, rfl, rfl, ?_⟩
  cases s.monitor with
  | none => exact .none
  | some r => exact .some (r.sameTasks_resize size)

/-- New preferences are a matter of what is shown, as far as the session goes. -/
theorem kept_setPreferences (s : Session) (p : Preferences) : s.Kept (s.setPreferences p).1 := by
  refine ⟨rfl, rfl, rfl, rfl, rfl, rfl, rfl, ?_⟩
  show Option.Rel _ _ (s.monitor.map _)
  cases s.monitor with
  | none => exact .none
  | some r => exact .some (r.sameTasks_setPreferences p)

/-! ## Keys

What a key does depends on the phase: the picker has its own keys and so has the monitor, and the wish
to leave is granted in each phase. -/

/-- The session is left. -/
theorem change_exit (s : Session) (m : Message) : Change s m s.exit.1 s.exit.2.flatten := by
  rw [show s.exit.2 = farewell .exit from rfl, flatten_farewell]
  exact .exited

/-- A key for the picker moves it, picks a mode, or leaves the session. -/
theorem change_pick (h : s.Standing) (hp : s.phase = .configuring)
    (hm : ∀ seq result, m ≠ .result seq result) (action : Action) :
    Change s m (s.pick action).1 (s.pick action).2.flatten := by
  obtain ⟨p, hpicker, -, hmodes⟩ := h.picker hp
  unfold pick
  simp only [hpicker]
  rcases p.handle_cases action with ⟨q, hq, -⟩ | hq | hq
  · simp only [hq, Command.flatten_none]
    have hk := Kept.refl s
    exact .of_quiet hm
      ⟨hk.phase, hk.terminated, hk.activationSeq, hk.ended, hk.modes, hk.logs, hk.settings, hk.monitor⟩
  · simp only [hq, Command.flatten_one]
    have hmem : p.current ∈ ModePicker.distinct s.modes := hmodes ▸ p.current_mem
    simpa only [hpicker] using Change.picked (m := m) _ (ModePicker.mem_distinct.1 hmem) hp
  · simp only [hq]
    exact change_exit s m

/-- The choice of a mode again, after the question was answered. -/
theorem change_reconfigure {r r' : Monitor} (hr : s.monitor = some r) (hp : s.phase = .runtime)
    (hs : r'.stopWaits.ended = r.stopWaits.ended) :
    Change s m (reconfigure { s with monitor := some r' }).1
      (reconfigure { s with monitor := some r' }).2.flatten := by
  -- what is taken down is the same as it would be without the answer
  have hstop : stopMonitor { s with monitor := some r' } = s.stopMonitor := by
    simp only [stopMonitor, hr, hs]
  unfold reconfigure
  simp only [hstop]
  split
  · rename_i picker _
    simp only [Command.flatten_one]
    exact .reconfigured picker hp
  · rename_i e he
    simp only [flatten_farewell]
    exact .broke e (ModePicker.eq_nil_of_make_error he) hp

/-- A key for the monitor does one of four things. -/
theorem change_operate (h : s.Standing) (hp : s.phase = .runtime)
    (hm : ∀ seq result, m ≠ .result seq result) (action : Action) :
    Change s m (s.operate action).1 (s.operate action).2.flatten := by
  obtain ⟨r, hr⟩ := h.exists_monitor hp
  have hdeed := r.handleKey_deed action
  unfold operate
  simp only [hr]
  generalize r.handleKey action = u at hdeed ⊢
  -- to change a setting clears the screen for another theme and saves, both of which are silent
  cases hdeed with
  | shown same =>
    simp only [Monitor.quiet, Command.flatten_none]
    exact .of_quiet hm (Kept.withMonitor hr same s.prefs)
  | switched target =>
    simp only [Monitor.effects]
    by_cases htarget : target = r.screen
    · -- the screen that shows already
      rw [htarget, Monitor.switchScreen_self]
      simp only [Command.flatten_none]
      exact .of_quiet hm (Kept.withMonitor hr (Monitor.SameTasks.refl r) s.prefs)
    · rw [Monitor.flatten_switchScreen htarget]
      exact .switched target hr htarget
  | changed forward hscreen =>
    simp only [Monitor.changeSetting]
    refine .of_kept hm (Kept.withMonitor hr (r.sameTasks_setPreferences _) _) (fun e he => ?_)
      (fun p _ => ⟨r, hr, hscreen⟩)
    rw [Command.flatten_ofList, List.flatMap_cons, Command.flatten_one] at he
    rcases List.mem_append.1 he with he | he
    · rw [List.mem_singleton.1 he]
      rfl
    · split at he
      · rw [List.flatMap_singleton, Command.flatten_one] at he
        rw [List.mem_singleton.1 he]
        rfl
      · exact absurd he List.not_mem_nil
  | stopped =>
    have hchange : Change s m (reconfigure { s with monitor := some { r with confirm := none } }).1
        (reconfigure { s with monitor := some { r with confirm := none } }).2.flatten :=
      change_reconfigure hr hp rfl
    have hflat : ∀ c : Command Effect, (Command.ofList [.none, c]).flatten = c.flatten := by
      intro c
      rw [Command.flatten_ofList, List.flatMap_cons, Command.flatten_none, List.nil_append,
        List.flatMap_singleton]
    simp only [hflat]
    exact hchange

/-- What an action does depends on the phase.  The wish to leave is granted in each of them. -/
theorem change_handleAction (h : s.Standing) (hm : ∀ seq result, m ≠ .result seq result)
    (action : Action) : Change s m (s.handleAction action).1 (s.handleAction action).2.flatten := by
  unfold handleAction
  split
  · rename_i hp
    split
    · exact change_exit s m
    · exact change_pick h hp hm action
  · split
    · exact change_exit s m
    · exact .of_quiet hm (Kept.refl s)
  · rename_i hp
    split
    · exact change_exit s m
    · exact change_operate h hp hm action
  · split
    · exact change_exit s m
    · exact .of_quiet hm (Kept.refl s)

/-! ## Results

A result that is not of the activation that shows changes nothing.  Of the others, a timer that is
still wanted begins a new round, and an answer changes no more than what is shown of its subject. -/

/-- A result that is not of the activation that shows. -/
theorem change_of_not_live {seq : Nat} {result : TaskResult}
    (hseq : ∀ r, s.monitor = some r → seq ≠ r.seq) : Change s (.result seq result) s [] := by
  refine .shown (Kept.refl s) (fun _ he => absurd he List.not_mem_nil)
    (fun _ he => absurd he List.not_mem_nil) (fun c r hr hc _ => ?_) (fun r lines hr hm => ?_)
  · rcases Chain.eq_of_ofMessage? hc with ⟨-, hm⟩ | ⟨-, hm | hm⟩
    · cases hm
      exact hseq r hr rfl
    · cases hm
      exact hseq r hr rfl
    · cases hm
      exact hseq r hr rfl
  · cases hm
    exact hseq r hr rfl

/-- To put the same monitor back changes nothing. -/
theorem withMonitor_self {r : Monitor} (hr : s.monitor = some r) :
    { s with monitor := some r } = s := by rw [← hr]

/-- A result of the activation that shows which is no timer, and changes what is shown only. -/
theorem change_of_same {r r' : Monitor} (hr : s.monitor = some r) (same : r.SameTasks r')
    {result : TaskResult} (hc : ∀ c : Chain, c.ofMessage? (.result r.seq result) = none)
    (dropped : ∀ lines, result ≠ .logsFetched r.logSeq lines) :
    Change s (.result r.seq result) { s with monitor := some r' } [] := by
  refine .shown (Kept.withMonitor hr same s.prefs) (fun _ he => absurd he List.not_mem_nil)
    (fun _ he => absurd he List.not_mem_nil) (fun c q _ hq _ => ?_) (fun q lines hq hm => ?_)
  · rw [hc c] at hq
    exact nomatch hq
  · cases hr.symm.trans hq
    cases hm
    exact dropped lines rfl

/-- A timer of the activation that shows, whether it is still wanted or not. -/
theorem change_timer {r : Monitor} (hr : s.monitor = some r) {c : Chain} {result : TaskResult}
    {k : Link} (hc : c.ofMessage? (.result r.seq result) = some k) :
    Change s (.result r.seq result) { s with monitor := some (r.handleResult result).1 }
      (r.handleResult result).2.flatten := by
  obtain ⟨hself, hflat⟩ := Monitor.handleResult_timer hc
  have hseq : r.seq = k.1 := by
    rcases Chain.eq_of_ofMessage? hc with ⟨-, hm⟩ | ⟨-, hm | hm⟩
    · exact (Message.result.inj hm).1
    · exact (Message.result.inj hm).1
    · exact (Message.result.inj hm).1
  rw [hself, hflat, withMonitor_self hr]
  -- a timer is wanted if its number is the current one and its screen still shows
  split
  · rename_i h
    refine .refreshed c hr (hc.trans (congrArg some ?_)) h.2
    exact Prod.ext hseq.symm h.1
  · rename_i h
    refine .shown (Kept.refl s) (fun _ he => absurd he List.not_mem_nil)
      (fun _ he => absurd he List.not_mem_nil) (fun d q hq hd hhome => ?_) (fun q lines _ hm => ?_)
    · cases hr.symm.trans hq
      obtain rfl := Chain.eq_of_ofMessage?_of_ofMessage? hc hd
      rw [hc] at hd
      exact h ⟨congrArg Prod.snd (Option.some.inj hd), hhome⟩
    · have hfetched : result = .logsFetched q.logSeq lines := (Message.result.inj hm).2
      rw [hfetched] at hc
      cases c with
      | ticks | logs => exact nomatch hc

/-- A result that is let in is a timer, an answer, or news of the data plane. -/
theorem change_handleResult (h : s.Standing) (seq : Nat) (result : TaskResult) :
    Change s (.result seq result) (s.handleResult seq result).1
      (s.handleResult seq result).2.flatten := by
  unfold handleResult
  split
  · rename_i r hlive hr
    -- the result is of the activation that shows, so the monitor takes it
    obtain rfl : seq = r.seq := by
      simp only [isLive, Bool.and_eq_true, decide_eq_true_eq] at hlive
      rw [(h.monitor r hr).2.seq]
      exact hlive.2
    show Change s _ { s with monitor := some (r.handleResult result).1 }
      (r.handleResult result).2.flatten
    cases result with
    | tick n => exact change_timer (c := .ticks) hr rfl
    | logTick n => exact change_timer (c := .logs) hr rfl
    | logsChanged n => exact change_timer (c := .logs) hr rfl
    | ready =>
      simp only [Monitor.handleResult, Command.flatten_none]
      have same : r.SameTasks { r with connected := true } :=
        ⟨rfl, rfl, rfl, rfl, rfl, rfl, rfl, rfl, rfl, rfl⟩
      refine change_of_same hr same (fun c => ?_) (fun _ h => by cases h)
      cases c with
      | ticks | logs => rfl
    | trafficSampled n traffic =>
      simp only [Monitor.handleResult, Command.flatten_none]
      refine change_of_same hr ?_ (fun c => ?_) (fun _ h => by cases h)
      · split
        · exact r.sameTasks_record traffic
        · exact Monitor.SameTasks.refl r
      · cases c with
        | ticks | logs => rfl
    | logsFetched n lines =>
      simp only [Monitor.handleResult, Command.flatten_none]
      split
      · rename_i hn
        exact .fetched lines hr (by rw [hn])
      · rename_i hn
        refine change_of_same hr (Monitor.SameTasks.refl r) (fun c => ?_) (fun _ hl => ?_)
        · cases c with
          | ticks | logs => rfl
        · cases hl
          exact hn rfl
  · rename_i hnot
    rw [Command.flatten_none]
    refine change_of_not_live (fun r hr hseq => hnot r ?_ hr)
    have hp : s.phase = .runtime := h.monitor_iff.1 (by rw [hr]; rfl)
    simp only [isLive, Bool.and_eq_true, decide_eq_true_eq]
    exact ⟨hp, hseq.trans (h.monitor r hr).2.seq⟩

/-! ## Messages -/

/-- An activation is taken while one is waited for, and otherwise goes by. -/
theorem change_activate (s : Session) (a : Activation) :
    Change s (.activate a) (s.activate a).1 (s.activate a).2.flatten := by
  unfold activate
  split
  · exact .of_quiet (fun _ _ h => nomatch h) (Kept.refl s)
  · rename_i hp
    show Change s _ _ (Monitor.start _ a s.prefs s.logs s.settings s.size).2.flatten
    rw [Monitor.flatten_start]
    exact .activated a rfl (Decidable.not_not.1 hp) rfl

/-- **What a message does** to a session in order that goes on is in the list. -/
theorem update_change (h : s.Standing) (ht : s.terminated = false) (m : Message) :
    Change s m (s.update m).1 (s.update m).2.flatten := by
  unfold update
  rw [if_neg (by rw [ht]; decide)]
  cases m with
  | key k =>
    dsimp only
    split
    · exact change_handleAction (m := .key k) h (fun _ _ h => by cases h) _
    · exact .of_quiet (fun _ _ h => by cases h) (Kept.refl s)
  | resize size =>
    refine .of_kept (fun _ _ h => by cases h) (kept_resize s size) (fun e he => ?_) (fun p hp => ?_)
    · rw [Command.flatten_one] at he
      rw [List.mem_singleton.1 he]
      rfl
    · rw [Command.flatten_one] at hp
      cases List.mem_singleton.1 hp
  | activate a => exact change_activate s a
  | contextEnded seq =>
    dsimp only
    split
    · rename_i hs
      simp only [isLive, Bool.and_eq_true, decide_eq_true_eq] at hs
      rw [show s.disconnect.2.flatten = [.emit .runtimeDisconnected] from Command.flatten_one _]
      exact .disconnected hs.1 (by rw [hs.2])
    · exact .of_quiet (fun _ _ h => by cases h) (Kept.refl s)
  | result seq r => exact change_handleResult h seq r
  | showFatal report => exact .fatalShown report rfl
  | preferencesChanged p =>
    -- at most the screen is cleared, for another theme
    have hsilent : ∀ e ∈ (s.setPreferences p).2.flatten, e = .clearScreen := by
      intro e he
      simp only [setPreferences] at he
      split at he
      · exact List.mem_singleton.1 he
      · exact absurd he List.not_mem_nil
    refine .of_kept (fun _ _ h => by cases h) (kept_setPreferences s p) (fun e he => ?_)
      (fun q hq => ?_)
    · rw [hsilent e he]
      rfl
    · cases hsilent _ hq
  | close => exact change_exit s _

/-- What a session is started with never changes. -/
theorem Change.constants {s' : Session} {es : List Effect} (h : Change s m s' es) :
    s'.modes = s.modes ∧ s'.logs = s.logs ∧ s'.settings = s.settings := by
  cases h with
  | shown kept => exact ⟨kept.modes, kept.logs, kept.settings⟩
  | disconnected | fatalShown =>
    simp only [disconnect, showFatal, stopMonitor_eq]
    exact ⟨trivial, trivial, trivial⟩
  | reconfigured | broke =>
    simp only [stopMonitor_eq]
    exact ⟨trivial, trivial, trivial⟩
  | picked | refreshed | fetched | switched | activated | exited => exact ⟨rfl, rfl, rfl⟩

/-! ## Kinds of effects -/

/-- A round keeps a screen fresh, and does nothing else. -/
theorem kind_of_mem_round {r : Monitor} {e : Effect} (h : e ∈ r.round) : e.kind = .round := by
  -- a round is put together from single effects
  have hone : ∀ {f : Effect}, e ∈ (Command.one f).flatten → f.kind = .round → e.kind = .round := by
    intro f he hf
    rw [Command.flatten_one] at he
    rw [List.mem_singleton.1 he]
    exact hf
  unfold Monitor.round at h
  split at h
  · rcases List.mem_append.1 h with h | h
    · unfold Monitor.sample at h
      split at h
      · exact hone h rfl
      · exact absurd h (by simp)
    · exact hone h rfl
  · rcases List.mem_append.1 h with h | h
    · exact hone h rfl
    · unfold Monitor.armLogWait at h
      split at h
      · exact absurd h (by simp)
      · dsimp only at h
        split at h
        · exact hone h rfl
        · exact hone h rfl
  · exact absurd h List.not_mem_nil

/-- The waits of an activation watch over its data plane. -/
theorem kind_of_mem_waits {a : Activation} {seq : Nat} {e : Effect} (h : e ∈ a.waits seq) :
    e.kind = .vigil := by
  unfold Activation.waits at h
  rcases List.mem_cons.1 h with rfl | h
  · rfl
  · obtain ⟨signal, -, rfl⟩ := Option.map_eq_some_iff.1 (Option.mem_toList.1 h)
    rfl

end Session
end TunnelBoard
