import TunnelBoard.Monitor.Basic
/-
  What keys and results do to the tasks of a monitor.

  Most operations change only what is shown: the monitor before and after runs the same tasks
  (`SameTasks`), under the same numbers and on the same screen.  A key does one of four things
  (`KeyDeed`), and `handleKey_deed` says so once for all; whoever reasons about keys takes the four
  cases from there and does not open the key tables again.

  To go to another screen is two steps, one that ends the tasks of the screen that is left and one
  that begins those of the other (`leaving`, `entering`).  What they do to the numbers of the tasks is
  said where it is needed; here it is only said which fields they leave alone.
-/

namespace TunnelBoard
namespace Monitor

/-- Two states of a monitor with the same tasks, the same screen and the same log lines. -/
structure SameTasks (r r' : Monitor) : Prop where
  seq : r'.seq = r.seq
  mode : r'.mode = r.mode
  screen : r'.screen = r.screen
  tickSeq : r'.tickSeq = r.tickSeq
  logSeq : r'.logSeq = r.logSeq
  logVisit : r'.logVisit = r.logVisit
  ended : r'.ended = r.ended
  logLines : r'.logLines = r.logLines
  logs : r'.logs = r.logs
  settings : r'.settings = r.settings

variable {r : Monitor}

/-- A monitor runs the same tasks as itself. -/
theorem SameTasks.refl (r : Monitor) : r.SameTasks r :=
  ⟨rfl, rfl, rfl, rfl, rfl, rfl, rfl, rfl, rfl, rfl⟩

/-! ## Operations that change only what is shown -/

/-- The size of the terminal is a matter of what is shown. -/
theorem sameTasks_resize (r : Monitor) (size : TerminalSize) : r.SameTasks (r.resize size) :=
  ⟨rfl, rfl, rfl, rfl, rfl, rfl, rfl, rfl, rfl, rfl⟩

/-- Preferences are a matter of what is shown, too. -/
theorem sameTasks_setPreferences (r : Monitor) (p : Preferences) :
    r.SameTasks (r.setPreferences p) :=
  ⟨rfl, rfl, rfl, rfl, rfl, rfl, rfl, rfl, rfl, rfl⟩

/-- A snapshot goes into the rates and the samples, and to no task. -/
theorem sameTasks_record (r : Monitor) (s : Snapshot) : r.SameTasks (r.record s) := by
  unfold record
  split
  · exact ⟨rfl, rfl, rfl, rfl, rfl, rfl, rfl, rfl, rfl, rfl⟩
  · exact ⟨rfl, rfl, rfl, rfl, rfl, rfl, rfl, rfl, rfl, rfl⟩

/-! ## Keys -/

/-- What a key does to a monitor. -/
inductive KeyDeed (r : Monitor) : Update → Prop where
  /-- It changes what is shown and asks for nothing. -/
  | shown {r' : Monitor} (same : r.SameTasks r') (prefs : r'.prefs = r.prefs)
      (size : r'.size = r.size) (connected : r'.connected = r.connected) : KeyDeed r (quiet r')
  /-- It goes to a screen. -/
  | switched (target : Screen) : KeyDeed r (effects (r.switchScreen target))
  /-- It changes a setting. -/
  | changed (forward : Bool) (screen : r.screen = .settings) : KeyDeed r (r.changeSetting forward)
  /-- It answers the question with yes: the data plane is to be left. -/
  | stopped : KeyDeed r ⟨{ r with confirm := none }, .none, some .reconfigure⟩

/-- A key that changes nothing of the tasks. -/
theorem KeyDeed.same (r : Monitor) : KeyDeed r (quiet r) := .shown (SameTasks.refl r) rfl rfl rfl

/-- While there is a question, keys move the choice or answer. -/
theorem handleConfirmKey_deed (r : Monitor) (choice : ConfirmChoice) (action : Action) :
    KeyDeed r (r.handleConfirmKey choice action) := by
  -- the question is open or closed, and that is only shown
  have hanswer : ∀ confirm, KeyDeed r (quiet { r with confirm }) := fun _ =>
    .shown ⟨rfl, rfl, rfl, rfl, rfl, rfl, rfl, rfl, rfl, rfl⟩ rfl rfl rfl
  cases action with
  | left | right | up | down | nextTab | prevTab => exact hanswer _
  | select =>
    cases choice with
    | stop => exact .stopped
    | goOn => exact hanswer _
  | back => exact hanswer _
  | quit | pageUp | pageDown | first | last | space => exact .same r

/-- On the settings, keys move the row, change the setting in it, or go back. -/
theorem handleSettingsKey_deed (hs : r.screen = .settings) (action : Action) :
    KeyDeed r (r.handleSettingsKey action) := by
  have hrow : ∀ row, KeyDeed r (quiet { r with row }) := fun _ =>
    .shown ⟨rfl, rfl, rfl, rfl, rfl, rfl, rfl, rfl, rfl, rfl⟩ rfl rfl rfl
  cases action with
  | up | down | first | last => exact hrow _
  | left | right | select | space => exact .changed _ hs
  | back => exact .switched _
  | quit | nextTab | prevTab | pageUp | pageDown => exact .same r

/-- On the logs, keys move the window, or go back. -/
theorem handleLogsKey_deed (r : Monitor) (action : Action) : KeyDeed r (r.handleLogsKey action) := by
  have hwindow : ∀ logScroll logFollow, KeyDeed r (quiet { r with logScroll, logFollow }) :=
    fun _ _ => .shown ⟨rfl, rfl, rfl, rfl, rfl, rfl, rfl, rfl, rfl, rfl⟩ rfl rfl rfl
  cases action with
  | up | down | pageUp | pageDown | first | last | space => exact hwindow _ _
  | back => exact .switched _
  | quit | left | right | select | nextTab | prevTab => exact .same r

/-- **A key does one of four things**, whichever screen it is pressed on and whether there is a
    question or not. -/
theorem handleKey_deed (r : Monitor) (action : Action) : KeyDeed r (r.handleKey action) := by
  unfold handleKey
  split
  · -- a question takes all keys; else a change of tabs does not depend on the screen
    exact handleConfirmKey_deed r _ action
  · split
    · exact .switched _
    · exact .switched _
    · split
      · split
        · exact .shown ⟨rfl, rfl, rfl, rfl, rfl, rfl, rfl, rfl, rfl, rfl⟩ rfl rfl rfl
        · exact .same r
      · rename_i hs
        exact handleSettingsKey_deed hs _
      · exact handleLogsKey_deed r _

/-! ## Going to another screen -/

/-- A monitor that leaves its screen. -/
def leaving (r : Monitor) : Monitor :=
  match r.screen with
  | .logs => r.stopLogWait
  | .dataplane => { r with tickSeq := r.tickSeq + 1 }
  | .settings => r

/-- A monitor that comes to a screen. -/
def entering (r : Monitor) : Screen → Monitor
  | .dataplane => (startTicks { r with screen := .dataplane }).1
  | .logs => (startLogWatch { r with screen := .logs }).1
  | .settings => { r with screen := .settings }

/-- To go where one is changes nothing. -/
theorem switchScreen_self (r : Monitor) : r.switchScreen r.screen = (r, .none) := by
  unfold switchScreen
  rw [if_pos rfl]

/-- Going to another screen is to leave the one and to come to the other. -/
theorem fst_switchScreen {target : Screen} (h : target ≠ r.screen) :
    (r.switchScreen target).1 = r.leaving.entering target := by
  unfold switchScreen
  rw [if_neg h]
  cases target with
  | dataplane | settings | logs => rfl

/-- What going to another screen leaves as it is. -/
theorem switchScreen_frame (r : Monitor) (target : Screen) :
    let r' := (r.switchScreen target).1
    r'.seq = r.seq ∧ r'.mode = r.mode ∧ r'.prefs = r.prefs ∧ r'.size = r.size ∧
      r'.logs = r.logs ∧ r'.settings = r.settings ∧ r'.logLines = r.logLines ∧
      r'.connected = r.connected := by
  unfold switchScreen
  split
  · exact ⟨rfl, rfl, rfl, rfl, rfl, rfl, rfl, rfl⟩
  · cases target with
    | dataplane | settings | logs =>
      cases r.screen with
      | dataplane | settings | logs => exact ⟨rfl, rfl, rfl, rfl, rfl, rfl, rfl, rfl⟩

end Monitor
end TunnelBoard
