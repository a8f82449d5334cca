import TunnelBoard.Monitor.Basic
/-
  A monitor that is up is consistent in itself, whatever is done to it.

  Three things are kept apart, because hardly any operation touches more than one of them:

  * `Placed`: the question whether to stop is open on the data plane's screen only, and a visit to the
    logs goes on exactly while the logs screen shows;
  * `InWindow`: the window on the log lies within the lines, and a window that follows lies at their
    end;
  * `Sampled`: both directions have the same number of samples, no more than there are slots, and none
    while the graph is off.

  `Consistent` is the three together.  A monitor starts consistent (`consistent_start`), and keys,
  results, sizes and preferences keep it so (`consistent_handleKey`, `consistent_handleResult`,
  `consistent_resize`, `consistent_setPreferences`).  Whatever changes how many lines there are or how
  many can be seen clamps the window afterwards, and clamping needs nothing of the window it is given
  (`inWindow_clampScroll`).  Only the end of all waits breaks the consistency, which is why a session
  that is over is left out of the theory of sessions.
-/

namespace TunnelBoard
namespace Monitor

/-! ## The three parts -/

/-- What the screen has to do with the question and with the visit. -/
structure Placed (r : Monitor) : Prop where
  /-- The question is open on the screen of the data plane only. -/
  confirm : r.confirm.isSome → r.screen = .dataplane
  /-- A visit to the logs goes on exactly while they are on the screen. -/
  visit : r.logVisit.isSome ↔ r.screen = .logs

/-- Where the window on the log may lie. -/
structure InWindow (r : Monitor) : Prop where
  scroll_le : r.logScroll ≤ r.maxScroll
  follow : r.logFollow = true → r.logScroll = 0

/-- How many samples there may be. -/
structure Sampled (r : Monitor) : Prop where
  count_eq : r.rx.count = r.tx.count
  count_le : r.rx.count ≤ sampleCapacity
  graph_off : r.prefs.showGraph = false → r.rx = .empty ∧ r.tx = .empty

/-- A monitor whose parts fit together. -/
structure Consistent (r : Monitor) : Prop where
  placed : r.Placed
  window : r.InWindow
  sampled : r.Sampled

variable {r : Monitor}

/-! ## The window on the log -/

/-- Clamping brings any window back, wherever it was. -/
theorem inWindow_clampScroll (r : Monitor) : r.clampScroll.InWindow := by
  unfold clampScroll
  by_cases hf : r.logFollow = true
  · -- a window that follows is put at the end
    refine ⟨?_, fun _ => ?_⟩
    · simp [hf]
    · simp [hf]
  · refine ⟨?_, fun h => absurd h hf⟩
    simp only [hf, maxScroll, viewportRows]
    exact Nat.min_le_right _ _

/-- Upwards the window goes to the first line at most. -/
theorem inWindow_scrollUp (r : Monitor) (lines : Nat) : (r.scrollUp lines).InWindow := by
  refine ⟨Nat.min_le_right _ _, fun hf => ?_⟩
  -- a window that still follows has not moved: its target was the end of the log
  simp only [scrollUp] at hf ⊢
  split at hf
  · exact absurd hf (by decide)
  · omega

/-- Downwards it stays among the lines that were above. -/
theorem inWindow_scrollDown (h : r.InWindow) (lines : Nat) : (r.scrollDown lines).InWindow := by
  refine ⟨?_, fun hf => ?_⟩
  · have hle : (r.scrollDown lines).logScroll ≤ r.logScroll := Nat.sub_le _ _
    exact Nat.le_trans hle h.scroll_le
  · simp only [scrollDown] at hf ⊢
    split at hf
    · assumption
    · have := h.follow hf
      omega

/-! ## Frames: what an operation leaves alone -/

/-- Clamping moves nothing but the window. -/
theorem consistent_clampScroll (hp : r.Placed) (hs : r.Sampled) : r.clampScroll.Consistent :=
  ⟨⟨hp.confirm, hp.visit⟩, inWindow_clampScroll r, ⟨hs.count_eq, hs.count_le, hs.graph_off⟩⟩

/-- Whatever is not part of the window keeps its place and its samples. -/
theorem Consistent.withWindow (h : r.Consistent) {scroll : Nat} {follow : Bool}
    (hw : InWindow { r with logScroll := scroll, logFollow := follow }) :
    Consistent { r with logScroll := scroll, logFollow := follow } :=
  ⟨⟨h.placed.confirm, h.placed.visit⟩, hw,
    ⟨h.sampled.count_eq, h.sampled.count_le, h.sampled.graph_off⟩⟩

/-- Screens, numbers and waits may change freely, as long as the monitor stays placed. -/
theorem Consistent.withPlace (h : r.Consistent) {screen : Screen} {confirm : Option ConfirmChoice}
    {tickSeq logSeq : Nat} {visit : Option Nat} {ended : List Scope}
    (hp : Placed { r with screen, confirm, tickSeq, logSeq, logVisit := visit, ended }) :
    Consistent { r with screen, confirm, tickSeq, logSeq, logVisit := visit, ended } :=
  ⟨hp, ⟨h.window.scroll_le, h.window.follow⟩,
    ⟨h.sampled.count_eq, h.sampled.count_le, h.sampled.graph_off⟩⟩

/-- A new size changes how many lines can be seen. -/
theorem consistent_resize (h : r.Consistent) (size : TerminalSize) : (r.resize size).Consistent :=
  consistent_clampScroll ⟨h.placed.confirm, h.placed.visit⟩
    ⟨h.sampled.count_eq, h.sampled.count_le, h.sampled.graph_off⟩

/-- New lines change how many there are. -/
theorem consistent_showLines (h : r.Consistent) (lines : List Text) :
    (r.showLines lines).Consistent :=
  consistent_clampScroll ⟨h.placed.confirm, h.placed.visit⟩
    ⟨h.sampled.count_eq, h.sampled.count_le, h.sampled.graph_off⟩

/-! ## Samples -/

/-- A snapshot gives each direction one sample, or none while the graph is off. -/
theorem sampled_record (h : r.Sampled) (s : Snapshot) : (r.record s).Sampled := by
  unfold record
  split
  · rename_i hg
    refine ⟨?_, Nat.min_le_right _ _, fun hoff => ?_⟩
    · show min (r.rx.count + 1) sampleCapacity = min (r.tx.count + 1) sampleCapacity
      rw [h.count_eq]
    · exact absurd hoff (by simp [hg])
  · exact ⟨h.count_eq, h.count_le, h.graph_off⟩

/-- The rest of a monitor has nothing to do with it. -/
theorem consistent_record (h : r.Consistent) (s : Snapshot) : (r.record s).Consistent := by
  refine ⟨?_, ?_, sampled_record h.sampled s⟩
  · unfold record
    split
    · exact ⟨h.placed.confirm, h.placed.visit⟩
    · exact ⟨h.placed.confirm, h.placed.visit⟩
  · unfold record
    split
    · exact ⟨h.window.scroll_le, h.window.follow⟩
    · exact ⟨h.window.scroll_le, h.window.follow⟩

/-- New preferences keep the samples, or start both directions afresh. -/
theorem consistent_setPreferences (h : r.Consistent) (p : Preferences) :
    (r.setPreferences p).Consistent := by
  refine consistent_clampScroll ⟨h.placed.confirm, h.placed.visit⟩ ?_
  -- samples are kept only if the graph stays on or off
  by_cases hk : p.showGraph = r.prefs.showGraph
  · refine ⟨?_, ?_, fun hoff => ?_⟩
    · simp only [hk, if_true]
      exact h.sampled.count_eq
    · simp only [hk, if_true]
      exact h.sampled.count_le
    · simp only [hk, if_true]
      exact h.sampled.graph_off (hk ▸ hoff)
  · refine ⟨?_, ?_, fun _ => ?_⟩
    · simp only [hk, if_false]
    · simp only [hk, if_false]
      exact Nat.zero_le _
    · simp only [hk, if_false]
      exact ⟨trivial, trivial⟩

/-! ## Results -/

/-- Results that are out of date change nothing; the others bring a snapshot, lines, or the
    connection. -/
theorem consistent_handleResult (h : r.Consistent) (result : TaskResult) :
    (r.handleResult result).1.Consistent := by
  cases result with
  | ready => exact ⟨⟨h.placed.confirm, h.placed.visit⟩, ⟨h.window.scroll_le, h.window.follow⟩,
      ⟨h.sampled.count_eq, h.sampled.count_le, h.sampled.graph_off⟩⟩
  | tick tickSeq =>
    simp only [handleResult]
    split
    · exact h
    · exact h
  | trafficSampled tickSeq traffic =>
    simp only [handleResult]
    split
    · exact consistent_record h traffic
    · exact h
  | logTick logSeq => exact h
  | logsChanged logSeq => exact h
  | logsFetched logSeq lines =>
    simp only [handleResult]
    split
    · exact consistent_showLines h lines
    · exact h

/-! ## Screens -/

/-- Without a visit, a screen that is not that of the logs is in its place. -/
theorem Placed.no_visit (h : r.Placed) (hs : r.screen ≠ .logs) : ¬ r.logVisit.isSome :=
  fun hv => hs (h.visit.1 hv)

/-- Going to another screen, which happens only while no question is open. -/
theorem consistent_switchScreen (h : r.Consistent) (hc : r.confirm = none) (target : Screen) :
    (r.switchScreen target).1.Consistent := by
  unfold switchScreen
  split
  · exact h
  · rename_i hne
    have hconfirm : ¬ r.confirm.isSome := by rw [hc]; exact Bool.false_ne_true
    -- by where it goes and where it comes from; a visit begins or ends with the logs
    cases target with
    | dataplane =>
      cases hs : r.screen with
      | dataplane => exact absurd hs.symm hne
      | settings =>
        have hv := h.placed.no_visit (by rw [hs]; decide)
        exact h.withPlace ⟨fun hq => absurd hq hconfirm, ⟨fun hq => absurd hq hv, (nomatch ·)⟩⟩
      | logs =>
        exact h.withPlace ⟨fun hq => absurd hq hconfirm, ⟨(nomatch ·), (nomatch ·)⟩⟩
    | settings =>
      cases hs : r.screen with
      | dataplane =>
        have hv := h.placed.no_visit (by rw [hs]; decide)
        exact h.withPlace ⟨fun hq => absurd hq hconfirm, ⟨fun hq => absurd hq hv, (nomatch ·)⟩⟩
      | settings => exact absurd hs.symm hne
      | logs =>
        exact h.withPlace ⟨fun hq => absurd hq hconfirm, ⟨(nomatch ·), (nomatch ·)⟩⟩
    | logs =>
      cases hs : r.screen with
      | dataplane => exact h.withPlace ⟨fun hq => absurd hq hconfirm, ⟨fun _ => rfl, fun _ => rfl⟩⟩
      | settings => exact h.withPlace ⟨fun hq => absurd hq hconfirm, ⟨fun _ => rfl, fun _ => rfl⟩⟩
      | logs => exact absurd hs.symm hne

/-! ## Keys -/

/-- The question may be answered, turned over or put away. -/
theorem consistent_withConfirm (h : r.Consistent) {confirm : Option ConfirmChoice}
    (hc : confirm.isSome → r.screen = .dataplane) : Consistent { r with confirm } :=
  h.withPlace ⟨hc, h.placed.visit⟩

/-- While the question is open, the screen is that of the data plane, and it stays so. -/
theorem consistent_handleConfirmKey (h : r.Consistent) {choice : ConfirmChoice}
    (hc : r.confirm = some choice) (action : Action) :
    (r.handleConfirmKey choice action).monitor.Consistent := by
  have hs : r.screen = .dataplane := h.placed.confirm (by rw [hc]; rfl)
  cases action with
  | left | right | up | down | nextTab | prevTab => exact consistent_withConfirm h (fun _ => hs)
  | select =>
    cases choice with
    | stop => exact consistent_withConfirm h (nomatch ·)
    | goOn => exact consistent_withConfirm h (nomatch ·)
  | back => exact consistent_withConfirm h (nomatch ·)
  | quit | pageUp | pageDown | first | last | space => exact h

/-- The settings have a row that is selected and preferences that are changed. -/
theorem consistent_handleSettingsKey (h : r.Consistent) (hc : r.confirm = none) (action : Action) :
    (r.handleSettingsKey action).monitor.Consistent := by
  have hrow : ∀ row, Consistent { r with row } := fun row =>
    ⟨⟨h.placed.confirm, h.placed.visit⟩, ⟨h.window.scroll_le, h.window.follow⟩,
      ⟨h.sampled.count_eq, h.sampled.count_le, h.sampled.graph_off⟩⟩
  cases action with
  | up | down | first | last => exact hrow _
  | left | right | select | space => exact consistent_setPreferences h _
  | back => exact consistent_switchScreen h hc _
  | quit | nextTab | prevTab | pageUp | pageDown => exact h

/-- The logs have a window. -/
theorem consistent_handleLogsKey (h : r.Consistent) (hc : r.confirm = none) (action : Action) :
    (r.handleLogsKey action).monitor.Consistent := by
  cases action with
  | up | pageUp => exact h.withWindow (inWindow_scrollUp r _)
  | down | pageDown => exact h.withWindow (inWindow_scrollDown h.window _)
  | first => exact h.withWindow ⟨Nat.le_refl _, fun hf => nomatch hf⟩
  | last => exact h.withWindow ⟨Nat.zero_le _, fun _ => rfl⟩
  | space =>
    exact consistent_clampScroll ⟨h.placed.confirm, h.placed.visit⟩
      ⟨h.sampled.count_eq, h.sampled.count_le, h.sampled.graph_off⟩
  | back => exact consistent_switchScreen h hc _
  | quit | left | right | select | nextTab | prevTab => exact h

/-- **Every key keeps a monitor consistent.** -/
theorem consistent_handleKey (h : r.Consistent) (action : Action) :
    (r.handleKey action).monitor.Consistent := by
  unfold handleKey
  split
  · rename_i choice hc
    exact consistent_handleConfirmKey h hc action
  · rename_i hc
    split
    · exact consistent_switchScreen h hc _
    · exact consistent_switchScreen h hc _
    · split
      · rename_i hs
        split
        · exact consistent_withConfirm h (fun _ => hs)
        · exact h
      · exact consistent_handleSettingsKey h hc _
      · exact consistent_handleLogsKey h hc _

/-! ## The beginning -/

/-- A monitor starts on the screen of the data plane, without samples and without lines. -/
theorem consistent_start (seq : Nat) (a : Activation) (prefs : Preferences) (logs : LogSource)
    (settings : DashboardConfig) (size : TerminalSize) :
    (start seq a prefs logs settings size).1.Consistent :=
  ⟨⟨(nomatch ·), ⟨(nomatch ·), (nomatch ·)⟩⟩, ⟨Nat.zero_le _, fun _ => rfl⟩,
    ⟨rfl, Nat.zero_le _, fun _ => ⟨rfl, rfl⟩⟩⟩

end Monitor
end TunnelBoard
