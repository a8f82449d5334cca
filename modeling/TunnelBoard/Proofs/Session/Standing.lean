import TunnelBoard.Proofs.Monitor.Consistent
import TunnelBoard.Proofs.Monitor.Tasks
import TunnelBoard.Proofs.Session.Run
/-
  The standing order of a session: in every state that is not the end, phase and parts fit together.

  A session holds copies: its monitor has the session's preferences, size and number of its own, and
  each phase has a part that must be there in that phase and in no other.  `Standing` lists what
  belongs together.  A session that begins with a mode to pick is in order (`standing_begun`), each
  message keeps the order unless it ends the session (`Standing.update`), and so any messages do
  (`standing_after`).

  There is a lemma for each operation that a message can lead to.  They are of two kinds.  Where a
  monitor goes, or has never been, only the choice of a mode is left to check (`standing_of_bare`);
  where one stays, it is exchanged for another one that is as consistent and in step as the old one
  was (`Standing.withMonitor`).  What a key can do to a monitor has been said before, and is not taken
  apart again here.
-/

namespace TunnelBoard

/-! ## The picker -/

namespace ModePicker

/-- Going through modes adds those that were not seen, and loses none. -/
theorem mem_distinct_foldl (modes seen : List Mode) (m : Mode) :
    m ∈ modes.foldl (fun seen m => if m ∈ seen then seen else seen ++ [m]) seen ↔
      m ∈ seen ∨ m ∈ modes := by
  induction modes generalizing seen with
  | nil => simp
  | cons n modes ih =>
    rw [List.foldl_cons, ih, List.mem_cons]
    by_cases hn : n ∈ seen
    · rw [if_pos hn]
      constructor
      · rintro (h | h)
        · exact Or.inl h
        · exact Or.inr (Or.inr h)
      · rintro (h | rfl | h)
        · exact Or.inl h
        · exact Or.inl hn
        · exact Or.inr h
    · rw [if_neg hn, List.mem_append, List.mem_singleton, or_assoc]

/-- The modes on offer are the configured ones. -/
theorem mem_distinct {modes : List Mode} {m : Mode} : m ∈ distinct modes ↔ m ∈ modes := by
  rw [distinct, mem_distinct_foldl]
  simp

/-- A picker offers what it was made for. -/
theorem modes_of_make {modes : List Mode} {preselect : Option Mode} {p : ModePicker}
    (h : make modes preselect = .ok p) : p.modes = distinct modes := by
  unfold make at h
  dsimp only at h
  split at h
  · cases h; rfl
  · split at h
    · cases h; rfl
    · cases h

/-- Making a picker fails when there is nothing to offer, and only then. -/
theorem eq_nil_of_make_error {modes : List Mode} {preselect : Option Mode} {e : SessionError}
    (h : make modes preselect = .error e) : modes = [] := by
  unfold make at h
  dsimp only at h
  split at h
  · cases h
  · split at h
    · cases h
    · rename_i hlen
      rw [List.eq_nil_iff_forall_not_mem]
      intro m hm
      exact hlen (List.length_pos_of_mem (mem_distinct.2 hm))

/-- The cursor of a picker is on one of the modes on offer. -/
theorem current_mem (p : ModePicker) : p.current ∈ p.modes := List.get_mem _ _

/-- A key moves the cursor of a picker, or has it give its mode; it offers the same modes. -/
theorem handle_cases (p : ModePicker) (action : Action) :
    (∃ q, p.handle action = .pending q ∧ q.modes = p.modes) ∨
      p.handle action = .selected p.current ∨ p.handle action = .cancelled := by
  cases action with
  | up | down | left | right | nextTab | prevTab | first | last | quit | pageUp | pageDown =>
    exact Or.inl ⟨_, rfl, rfl⟩
  | select | space => exact Or.inr (Or.inl rfl)
  | back => exact Or.inr (Or.inr rfl)

end ModePicker

/-! ## The order -/

/-- The monitor is that of the session: its copies of what the session knows are up to date. -/
structure Monitor.InStep (r : Monitor) (s : Session) : Prop where
  seq : r.seq = s.activationSeq
  prefs : r.prefs = s.prefs
  size : r.size = s.size
  mode : s.lastMode = some r.mode
  logs : r.logs = s.logs
  settings : r.settings = s.settings

namespace Session

structure Standing (s : Session) : Prop where
  monitor_iff : s.monitor.isSome ↔ s.phase = .runtime
  fatal_iff : s.fatal.isSome ↔ s.phase = .fatal
  /-- While a mode is picked there is a picker over the configured modes. -/
  picker : s.phase = .configuring →
    ∃ p, s.picker = some p ∧ p.selected < p.modes.length ∧ p.modes = ModePicker.distinct s.modes
  no_picker : s.phase = .fatal → s.picker = none
  pending : s.phase = .waiting → s.pendingMode.isSome
  monitor : ∀ r, s.monitor = some r → r.Consistent ∧ r.InStep s

variable {s : Session}

/-- There is no monitor in another phase than its own. -/
theorem Standing.monitor_eq_none (h : s.Standing) (hp : s.phase ≠ .runtime) : s.monitor = none := by
  cases hm : s.monitor with
  | none => rfl
  | some r => exact absurd (h.monitor_iff.1 (by rw [hm]; rfl)) hp

/-- In its phase there is a monitor. -/
theorem Standing.exists_monitor (h : s.Standing) (hp : s.phase = .runtime) :
    ∃ r, s.monitor = some r := Option.isSome_iff_exists.1 (h.monitor_iff.2 hp)

/-- There is no report of a failure in another phase than its own. -/
theorem Standing.fatal_eq_none (h : s.Standing) (hp : s.phase ≠ .fatal) : s.fatal = none := by
  cases hf : s.fatal with
  | none => rfl
  | some f => exact absurd (h.fatal_iff.1 (by rw [hf]; rfl)) hp

/-- Where neither a monitor nor a failure is there, only the choice of a mode is left to check. -/
theorem standing_of_bare (hm : s.monitor = none) (hf : s.fatal = none)
    (hp : s.phase = .configuring ∨ s.phase = .waiting)
    (picker : s.phase = .configuring → ∃ p, s.picker = some p ∧ p.selected < p.modes.length ∧
      p.modes = ModePicker.distinct s.modes)
    (pending : s.phase = .waiting → s.pendingMode.isSome) : s.Standing := by
  have hruntime : s.phase ≠ .runtime := by
    rcases hp with hp | hp
    · rw [hp]; decide
    · rw [hp]; decide
  have hfatal : s.phase ≠ .fatal := by
    rcases hp with hp | hp
    · rw [hp]; decide
    · rw [hp]; decide
  refine ⟨?_, ?_, picker, fun h => absurd h hfatal, pending, fun r hr => ?_⟩
  · rw [hm]
    exact ⟨(nomatch ·), fun h => absurd h hruntime⟩
  · rw [hf]
    exact ⟨(nomatch ·), fun h => absurd h hfatal⟩
  · rw [hm] at hr
    exact nomatch hr

/-- A session with a mode to pick begins in order. -/
theorem standing_begun {config : Config} {prefs : Preferences} {logs : LogSource}
    {size : TerminalSize} (ht : (begun config prefs logs size).terminated = false) :
    (begun config prefs logs size).Standing := by
  unfold begun init at ht ⊢
  cases hp : ModePicker.make config.modes none with
  | error e => simp [make, hp] at ht
  | ok p =>
    simp only [make, hp]
    refine standing_of_bare rfl rfl (Or.inl rfl) (fun _ => ?_) (nomatch ·)
    exact ⟨p, rfl, p.selected_lt, ModePicker.modes_of_make hp⟩

/-! ## Transitions -/

/-- The order speaks of the parts of a session only; when a part that it does not mention changes,
    it stands. -/
theorem standing_resize (h : s.Standing) (size : TerminalSize) :
    Standing { s with size, monitor := s.monitor.map (·.resize size) } := by
  refine ⟨by rw [Option.isSome_map]; exact h.monitor_iff, h.fatal_iff, h.picker, h.no_picker,
    h.pending, fun r' hr' => ?_⟩
  obtain ⟨r, hr, rfl⟩ := Option.map_eq_some_iff.1 hr'
  obtain ⟨hc, hi⟩ := h.monitor r hr
  exact ⟨Monitor.consistent_resize hc size, ⟨hi.seq, hi.prefs, rfl, hi.mode, hi.logs, hi.settings⟩⟩

/-- Preferences from outside go to the session and to the monitor alike. -/
theorem standing_setPreferences (h : s.Standing) (p : Preferences) :
    (s.setPreferences p).1.Standing := by
  refine ⟨by show (s.monitor.map _).isSome ↔ _; rw [Option.isSome_map]; exact h.monitor_iff,
    h.fatal_iff, h.picker, h.no_picker, h.pending, fun r' hr' => ?_⟩
  obtain ⟨r, hr, rfl⟩ := Option.map_eq_some_iff.1 hr'
  obtain ⟨hc, hi⟩ := h.monitor r hr
  exact ⟨Monitor.consistent_setPreferences hc p,
    ⟨hi.seq, rfl, hi.size, hi.mode, hi.logs, hi.settings⟩⟩

/-- An activation that is awaited brings a monitor, which is in step because it is made of the
    session's own data. -/
theorem standing_activate (h : s.Standing) (a : Activation) : (s.activate a).1.Standing := by
  unfold activate
  split
  · exact h
  · -- only a session that waits takes an activation
    rename_i hp
    have hp : s.phase = .waiting := Decidable.not_not.1 hp
    refine ⟨⟨fun _ => rfl, fun _ => rfl⟩, ⟨fun hf => ?_, (nomatch ·)⟩, (nomatch ·), (nomatch ·),
      (nomatch ·), fun r hr => ?_⟩
    · rw [show s.fatal = none from h.fatal_eq_none (by rw [hp]; decide)] at hf
      exact nomatch hf
    · cases hr
      exact ⟨Monitor.consistent_start .., ⟨rfl, rfl, rfl, rfl, rfl, rfl⟩⟩

/-- Taking down the monitor takes it away, remembers the scopes it ended, and does nothing else. -/
theorem stopMonitor_eq (s : Session) :
    s.stopMonitor = { s with
      monitor := none
      ended := s.ended ++ (s.monitor.map (·.stopWaits.ended)).getD [] } := by
  unfold stopMonitor
  split
  · rename_i hm
    simp only [hm, Option.map_none, Option.getD_none, List.append_nil]
    rw [← hm]
  · rename_i r hm
    rw [hm]
    rfl

/-- A context that ends takes the monitor down, and the mode it was for is waited for again. -/
theorem standing_disconnect (h : s.Standing) (hp : s.phase = .runtime) :
    s.disconnect.1.Standing := by
  obtain ⟨r, hr⟩ := h.exists_monitor hp
  have hfatal := h.fatal_eq_none (by rw [hp]; decide)
  -- there is a mode to wait for, since the monitor had one
  have hmode := (h.monitor r hr).2.mode
  unfold disconnect
  rw [stopMonitor_eq]
  exact standing_of_bare rfl hfatal (Or.inr rfl) (nomatch ·) (fun _ => by rw [hmode]; rfl)

/-- A failure that is shown takes everything else away, whatever was there. -/
theorem standing_showFatal (s : Session) (report : FatalReport) :
    (s.showFatal report).1.Standing := by
  unfold showFatal
  rw [stopMonitor_eq]
  exact ⟨⟨(nomatch ·), (nomatch ·)⟩, ⟨fun _ => rfl, fun _ => rfl⟩, (nomatch ·), fun _ => rfl,
    (nomatch ·), fun _ hr => nomatch hr⟩

/-- Back to the choice of a mode, unless there is none to choose. -/
theorem standing_reconfigure (hfatal : s.fatal = none)
    (ht : s.reconfigure.1.terminated = false) : s.reconfigure.1.Standing := by
  unfold reconfigure at ht ⊢
  rw [stopMonitor_eq] at ht ⊢
  cases hp : ModePicker.make s.modes s.lastMode with
  | error e => simp [hp] at ht
  | ok p =>
    refine standing_of_bare rfl hfatal (Or.inl rfl) (fun _ => ?_) (nomatch ·)
    exact ⟨p, rfl, p.selected_lt, ModePicker.modes_of_make hp⟩

/-! ## Keys -/

/-- In the picker a key moves the cursor, gives the mode or leaves. -/
theorem standing_pick (h : s.Standing) (hp : s.phase = .configuring) (action : Action)
    (ht : (s.pick action).1.terminated = false) : (s.pick action).1.Standing := by
  obtain ⟨p, hpicker, -, hmodes⟩ := h.picker hp
  have hmonitor := h.monitor_eq_none (by rw [hp]; decide)
  have hfatal := h.fatal_eq_none (by rw [hp]; decide)
  unfold pick at ht ⊢
  simp only [hpicker] at ht ⊢
  rcases p.handle_cases action with ⟨q, hq, hqm⟩ | hq | hq
  · simp only [hq]
    exact standing_of_bare hmonitor hfatal (Or.inl hp)
      (fun _ => ⟨q, rfl, q.selected_lt, hqm.trans hmodes⟩) h.pending
  · simp only [hq]
    exact standing_of_bare hmonitor hfatal (Or.inr rfl) (nomatch ·) (fun _ => rfl)
  · simp only [hq] at ht
    exact nomatch ht

/-- A session in order may exchange its monitor, and take over that one's preferences. -/
theorem Standing.withMonitor (h : s.Standing) {r r' : Monitor} (hr : s.monitor = some r)
    (prefs : Preferences) (hc : r'.Consistent)
    (hi : r'.InStep { s with prefs, monitor := some r' }) :
    Standing { s with prefs, monitor := some r' } := by
  have hp : s.phase = .runtime := h.monitor_iff.1 (by rw [hr]; rfl)
  refine ⟨⟨fun _ => hp, fun _ => rfl⟩, h.fatal_iff, h.picker, h.no_picker, h.pending,
    fun q hq => ?_⟩
  cases hq
  exact ⟨hc, hi⟩

/-- On the monitor a key keeps the order, or ends the session. -/
theorem standing_operate (h : s.Standing) (action : Action)
    (ht : (s.operate action).1.terminated = false) : (s.operate action).1.Standing := by
  unfold operate at ht ⊢
  cases hr : s.monitor with
  | none => simpa only [hr] using h
  | some r =>
    obtain ⟨hc, hi⟩ := h.monitor r hr
    have hfatal := h.fatal_eq_none (by rw [h.monitor_iff.1 (by rw [hr]; rfl)]; decide)
    have hc' := Monitor.consistent_handleKey hc action
    simp only [hr] at ht ⊢
    -- the four things that a key can do to the monitor
    have hdeed := r.handleKey_deed action
    generalize r.handleKey action = u at hc' hdeed ht ⊢
    cases hdeed with
    | shown same prefs size =>
      exact h.withMonitor hr s.prefs hc' ⟨same.seq.trans hi.seq, prefs.trans hi.prefs,
        size.trans hi.size, hi.mode.trans (congrArg some same.mode.symm), same.logs.trans hi.logs,
        same.settings.trans hi.settings⟩
    | switched target =>
      obtain ⟨hseq, hmode, hprefs, hsize, hlogs, hsettings, -⟩ := r.switchScreen_frame target
      exact h.withMonitor hr s.prefs hc' ⟨hseq.trans hi.seq, hprefs.trans hi.prefs,
        hsize.trans hi.size, hi.mode.trans (congrArg some hmode.symm), hlogs.trans hi.logs,
        hsettings.trans hi.settings⟩
    | changed forward hs =>
      exact h.withMonitor hr _ hc' ⟨hi.seq, rfl, hi.size, hi.mode, hi.logs, hi.settings⟩
    | stopped => exact standing_reconfigure hfatal ht

/-- In any phase an action keeps the order, unless it is the one to leave. -/
theorem standing_handleAction (h : s.Standing) (action : Action)
    (ht : (s.handleAction action).1.terminated = false) : (s.handleAction action).1.Standing := by
  unfold handleAction at ht ⊢
  -- every phase has its own actions, and all have one to leave
  cases hp : s.phase with
  | configuring =>
    simp only [hp] at ht ⊢
    split at ht
    · exact nomatch ht
    · rw [if_neg (by assumption)]
      exact standing_pick h hp action ht
  | waiting =>
    simp only [hp] at ht ⊢
    split at ht
    · exact nomatch ht
    · rw [if_neg (by assumption)]
      exact h
  | runtime =>
    simp only [hp] at ht ⊢
    split at ht
    · exact nomatch ht
    · rw [if_neg (by assumption)]
      exact standing_operate h action ht
  | fatal =>
    simp only [hp] at ht ⊢
    split at ht
    · exact nomatch ht
    · rw [if_neg (by assumption)]
      exact h

/-! ## Messages

Whatever kind a message is of, it keeps the standing order or ends the session, and a run is one
message after the other. -/

/-- What a result changes in a monitor is not among the copies of the session's data. -/
theorem inStep_handleResult {r : Monitor} (hi : r.InStep s) (result : TaskResult) :
    (r.handleResult result).1.InStep s := by
  -- traffic and lines are the monitor's own
  have hrecord : ∀ traffic, (r.record traffic).InStep s := by
    intro traffic
    unfold Monitor.record
    split
    · exact ⟨hi.seq, hi.prefs, hi.size, hi.mode, hi.logs, hi.settings⟩
    · exact ⟨hi.seq, hi.prefs, hi.size, hi.mode, hi.logs, hi.settings⟩
  cases result with
  | ready => exact ⟨hi.seq, hi.prefs, hi.size, hi.mode, hi.logs, hi.settings⟩
  | tick tickSeq =>
    simp only [Monitor.handleResult]
    split
    · exact hi
    · exact hi
  | trafficSampled tickSeq traffic =>
    simp only [Monitor.handleResult]
    split
    · exact hrecord traffic
    · exact hi
  | logTick logSeq => exact hi
  | logsChanged logSeq => exact hi
  | logsFetched logSeq lines =>
    simp only [Monitor.handleResult]
    split
    · exact ⟨hi.seq, hi.prefs, hi.size, hi.mode, hi.logs, hi.settings⟩
    · exact hi

/-- A result is taken by a monitor that goes on, or by none. -/
theorem standing_handleResult (h : s.Standing) (seq : Nat) (result : TaskResult) :
    (s.handleResult seq result).1.Standing := by
  unfold handleResult
  split
  · rename_i r _ hr
    obtain ⟨hc, hi⟩ := h.monitor r hr
    have hi' := inStep_handleResult hi result
    exact h.withMonitor hr s.prefs (Monitor.consistent_handleResult hc result)
      ⟨hi'.seq, hi'.prefs, hi'.size, hi'.mode, hi'.logs, hi'.settings⟩
  · exact h

/-- A message keeps a session in order, or ends it. -/
theorem Standing.update (h : s.Standing) (m : Message)
    (ht : (s.update m).1.terminated = false) : (s.update m).1.Standing := by
  unfold Session.update at ht ⊢
  split
  · exact h
  · rename_i hlive
    rw [if_neg hlive] at ht
    -- by the kind of message, as the session tells them apart
    cases m with
    | key k =>
      dsimp only at ht ⊢
      split at ht
      · exact standing_handleAction h _ ht
      · exact h
    | resize size => exact standing_resize h size
    | activate a => exact standing_activate h a
    | contextEnded seq =>
      dsimp only
      split
      · rename_i hs
        simp only [isLive, Bool.and_eq_true, decide_eq_true_eq] at hs
        exact standing_disconnect h hs.1
      · exact h
    | result seq r => exact standing_handleResult h seq r
    | showFatal report => exact standing_showFatal s report
    | preferencesChanged p => exact standing_setPreferences h p
    | close => exact nomatch ht

/-- Any messages keep a session in order for as long as they do not end it. -/
theorem standing_after {config : Config} {prefs : Preferences} {logs : LogSource}
    {size : TerminalSize} (ms : List Message)
    (ht : ((begun config prefs logs size).after ms).terminated = false) :
    ((begun config prefs logs size).after ms).Standing :=
  after_induction_of_live (fun _ m h => h.update m) standing_begun ms ht

/-- **The standing order.** Whatever a session is made of and whatever messages it gets in whatever
    order, for as long as it goes on phase and parts fit together: the parts that are there are those
    of the phase, the picker's cursor is on one of the configured modes, and the monitor is consistent
    in itself, a copy of what the session knows, and has its cursor on one of the settings. -/
theorem parts_fit_the_phase (config : Config) (prefs : Preferences) (logs : LogSource)
    (size : TerminalSize) (ms : List Message)
    (ht : ((begun config prefs logs size).after ms).terminated = false) :
    let s := (begun config prefs logs size).after ms
    s.Standing ∧ ∀ r, s.monitor = some r → r.row.index < SettingsRow.all.length := by
  refine ⟨standing_after ms ht, fun r _ => ?_⟩
  cases r.row with
  | theme | units | statsPanel | trafficGraph | footer => decide

/-- A session on its logs screen, after a mode was picked, a data plane came up and lines came in. -/
theorem parts_fit_the_phase_of_visit :
    let config := Config.standard none
    let size : TerminalSize := ⟨80, 24⟩
    let ms : List Message :=
      [.key ⟨.enter, false, .press⟩, .activate ⟨.tun, Token.never, none, 0⟩,
        .key ⟨.tab, false, .press⟩, .key ⟨.tab, false, .press⟩,
        .result 1 (.logsFetched 1 ["up".toList])]
    let s := (begun config .standard ⟨.ring, true⟩ size).after ms
    s.terminated = false ∧ s.Standing ∧
      ∀ r, s.monitor = some r → r.row.index < SettingsRow.all.length :=
  ⟨by decide, parts_fit_the_phase _ _ _ _ _ (by decide)⟩

end Session
end TunnelBoard
