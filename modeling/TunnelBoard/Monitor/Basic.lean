import TunnelBoard.Config.Basic
import TunnelBoard.Monitor.Screen
import TunnelBoard.Session.Command
import TunnelBoard.Session.Message
import TunnelBoard.Traffic.Samples
/-
  The monitor of a running data plane: its three screens and the tasks it keeps going.

  The screen of the data plane is refreshed by ticks, the logs screen by a wait for new lines.  Both are
  numbered, `tickSeq` and `logSeq`, and a number is given up when its screen is left, so that a late
  result of an earlier visit is known by its number and dropped.  The newest log lines are at hand;
  the window on them follows the end of the log, or stays where the operator put it.
-/

namespace TunnelBoard

structure Monitor where
  /-- The number of the activation. -/
  seq : Nat
  mode : Mode
  startedAt : Int
  prefs : Preferences
  screen : Screen
  connected : Bool
  /-- The question whether to stop, if it is open, with the answer under the cursor. -/
  confirm : Option ConfirmChoice
  row : SettingsRow
  tickSeq : Nat
  logSeq : Nat
  traffic : Snapshot
  rx : Samples
  tx : Samples
  logLines : List Text
  /-- How many lines the window is up from the end of the log. -/
  logScroll : Nat
  /-- Whether the window follows the end of the log. -/
  logFollow : Bool
  size : TerminalSize
  logs : LogSource
  settings : DashboardConfig
  /-- The visit to the logs screen that goes on, if one does. -/
  logVisit : Option Nat
  /-- The scopes of this activation that have ended. -/
  ended : List Scope
  deriving Repr

/-- What a key asks of the session. -/
inductive MonitorRequest where
  | reconfigure
  | preferencesChanged (p : Preferences)
  deriving DecidableEq, Repr

/-- The rows for log lines on a terminal.  The rest is borders, tabs, blank lines, the status line
    and the hints. -/
def logViewportRows (terminalRows : Nat) (showFooter : Bool) : Nat :=
  max (terminalRows - if showFooter then 7 else 5) 1

namespace Monitor

/-! ## The window on the log -/

def viewportRows (r : Monitor) : Nat := logViewportRows r.size.rows r.prefs.showFooter

/-- How far up the window can be. -/
def maxScroll (r : Monitor) : Nat := r.logLines.length - r.viewportRows

/-- Bring the window back to where lines are. -/
def clampScroll (r : Monitor) : Monitor :=
  { r with logScroll := if r.logFollow then 0 else min r.logScroll r.maxScroll }

def scrollUp (r : Monitor) (lines : Nat) : Monitor :=
  let target := min (r.logScroll + lines) r.maxScroll
  { r with
    logFollow := if 0 < target then false else r.logFollow
    logScroll := target }

def scrollDown (r : Monitor) (lines : Nat) : Monitor :=
  let target := r.logScroll - lines
  { r with
    logFollow := if target = 0 then true else r.logFollow
    logScroll := target }

/-- New lines.  A window that does not follow stays on its lines while the log grows. -/
def showLines (r : Monitor) (lines : List Text) : Monitor :=
  let grown := if r.logFollow then 0 else lines.length - r.logLines.length
  clampScroll { r with logScroll := r.logScroll + grown, logLines := lines }

def resize (r : Monitor) (size : TerminalSize) : Monitor := clampScroll { r with size }

/-- New preferences.  Switching the graph on or off starts it afresh. -/
def setPreferences (r : Monitor) (p : Preferences) : Monitor :=
  let kept := p.showGraph = r.prefs.showGraph
  clampScroll
    { r with
      rx := if kept then r.rx else Samples.empty
      tx := if kept then r.tx else Samples.empty
      prefs := p }

/-! ## Tasks -/

/-- The token of every wait of this activation. -/
def stopToken (r : Monitor) : StopToken := Token.ofScope (.activation r.seq)

def sample (r : Monitor) : Command Effect :=
  if r.prefs.showGraph || r.prefs.showStats then .one (.sampleTraffic r.seq r.tickSeq) else .none

def scheduleTick (r : Monitor) : Command Effect :=
  .one (.scheduleTick r.seq r.tickSeq r.settings.tickInterval r.stopToken)

/-- Start a new chain of ticks. -/
def startTicks (r : Monitor) : Monitor × Command Effect :=
  let r := { r with tickSeq := r.tickSeq + 1 }
  (r, .ofList [r.sample, r.scheduleTick])

def fetchLogs (r : Monitor) : Command Effect :=
  .one (.fetchLogs r.seq r.logSeq r.logs.feed r.settings.logTailLines)

/-- Wait for the next new lines, if a visit to the logs screen goes on. -/
def armLogWait (r : Monitor) : Command Effect :=
  match r.logVisit with
  | none => .none
  | some visit =>
    let stop := (Token.ofScope (.logVisit r.seq visit)).merge r.stopToken
    if r.logs.observable then .one (.watchLog r.seq r.logSeq stop)
    else .one (.scheduleLogTick r.seq r.logSeq r.settings.logPollInterval stop)

/-- End the visit to the logs screen, and give up its number. -/
def stopLogWait (r : Monitor) : Monitor :=
  { r with
    logVisit := none
    logSeq := r.logSeq + 1
    ended := r.ended ++ (r.logVisit.map (Scope.logVisit r.seq)).toList }

/-- Start a visit to the logs screen, numbered like the wait it starts with. -/
def startLogWatch (r : Monitor) : Monitor × Command Effect :=
  let r := r.stopLogWait
  let r := { r with logVisit := some r.logSeq }
  (r, .ofList [r.fetchLogs, r.armLogWait])

/-- End every wait, and give up all numbers. -/
def stopWaits (r : Monitor) : Monitor :=
  let r := stopLogWait { r with ended := r.ended ++ [.activation r.seq] }
  { r with tickSeq := r.tickSeq + 1 }

/-- The monitor of an activation, and what it needs to begin with. -/
def start (seq : Nat) (a : Activation) (prefs : Preferences) (logs : LogSource)
    (settings : DashboardConfig) (size : TerminalSize) : Monitor × Command Effect :=
  let r : Monitor :=
    { seq
      mode := a.mode
      startedAt := a.startedAt
      prefs
      screen := .dataplane
      connected := a.ready.isNone
      confirm := none
      row := .theme
      tickSeq := 0
      logSeq := 0
      traffic := .zero
      rx := .empty
      tx := .empty
      logLines := []
      logScroll := 0
      logFollow := true
      size
      logs
      settings
      logVisit := none
      ended := [] }
  let awaitReady : List (Command Effect) :=
    match a.ready with
    | none => []
    | some signal => [.one (.awaitReady seq signal r.stopToken)]
  let awaitEnd := Command.one (Effect.awaitContextEnd seq a.context r.stopToken)
  let (r, ticks) := r.startTicks
  (r, .ofList (awaitEnd :: awaitReady ++ [ticks]))

/-! ## Results -/

def record (r : Monitor) (s : Snapshot) : Monitor :=
  if r.prefs.showGraph then
    { r with traffic := s, rx := r.rx.push s.rxRate, tx := r.tx.push s.txRate }
  else { r with traffic := s }

/-- New log lines may be there: fetch them and wait again, if the wait is still wanted. -/
def refreshLogs (r : Monitor) (logSeq : Nat) : Command Effect :=
  if logSeq = r.logSeq ∧ r.screen = .logs then .ofList [r.fetchLogs, r.armLogWait] else .none

/-- Take in the result of a task.  What is not wanted any more changes nothing. -/
def handleResult (r : Monitor) : TaskResult → Monitor × Command Effect
  | .ready => ({ r with connected := true }, .none)
  | .tick tickSeq =>
    if tickSeq = r.tickSeq ∧ r.screen = .dataplane then (r, .ofList [r.sample, r.scheduleTick])
    else (r, .none)
  | .trafficSampled tickSeq traffic =>
    (if tickSeq = r.tickSeq then r.record traffic else r, .none)
  | .logTick logSeq => (r, r.refreshLogs logSeq)
  | .logsChanged logSeq => (r, r.refreshLogs logSeq)
  | .logsFetched logSeq lines => (if logSeq = r.logSeq then r.showLines lines else r, .none)

/-! ## Keys -/

/-- Go to another screen. -/
def switchScreen (r : Monitor) (target : Screen) : Monitor × Command Effect :=
  if target = r.screen then (r, .none)
  else
    let r :=
      match r.screen with
      | .logs => r.stopLogWait
      | .dataplane => { r with tickSeq := r.tickSeq + 1 }
      | .settings => r
    let r := { r with screen := target }
    match target with
    | .dataplane => r.startTicks
    | .logs => r.startLogWatch
    | .settings => (r, .none)

/-- What a key did: the monitor after it, the effects, and what the session has to do. -/
structure Update where
  monitor : Monitor
  command : Command Effect
  request : Option MonitorRequest

/-- An update without effects. -/
def quiet (r : Monitor) : Update := ⟨r, .none, none⟩

/-- An update with effects only. -/
def effects (u : Monitor × Command Effect) : Update := ⟨u.1, u.2, none⟩

/-- A key while the question is open. -/
def handleConfirmKey (r : Monitor) (choice : ConfirmChoice) : Action → Update
  | .left | .right | .up | .down | .nextTab | .prevTab =>
    quiet { r with confirm := some choice.toggled }
  | .select =>
    match choice with
    | .stop => ⟨{ r with confirm := none }, .none, some .reconfigure⟩
    | .goOn => quiet { r with confirm := none }
  | .back => quiet { r with confirm := none }
  | _ => quiet r

/-- Change the setting under the cursor. -/
def changeSetting (r : Monitor) (forward : Bool) : Update :=
  let p := r.row.change forward r.prefs
  let clear : List (Command Effect) :=
    if p.theme ≠ r.prefs.theme then [.one .clearScreen] else []
  ⟨r.setPreferences p, .ofList (.one (.savePreferences p) :: clear), some (.preferencesChanged p)⟩

def handleSettingsKey (r : Monitor) : Action → Update
  | .up => quiet { r with row := r.row.prev }
  | .down => quiet { r with row := r.row.next }
  | .first => quiet { r with row := .theme }
  | .last => quiet { r with row := .footer }
  | .left => r.changeSetting false
  | .right | .select | .space => r.changeSetting true
  | .back => effects (r.switchScreen .dataplane)
  | _ => quiet r

def handleLogsKey (r : Monitor) : Action → Update
  | .up => quiet (r.scrollUp 1)
  | .down => quiet (r.scrollDown 1)
  | .pageUp => quiet (r.scrollUp r.viewportRows)
  | .pageDown => quiet (r.scrollDown r.viewportRows)
  | .first => quiet { r with logFollow := false, logScroll := r.maxScroll }
  | .last => quiet { r with logFollow := true, logScroll := 0 }
  | .space => quiet (clampScroll { r with logFollow := !r.logFollow })
  | .back => effects (r.switchScreen .dataplane)
  | _ => quiet r

def handleKey (r : Monitor) (action : Action) : Update :=
  match r.confirm with
  | some choice => r.handleConfirmKey choice action
  | none =>
    match action with
    | .nextTab => effects (r.switchScreen r.screen.next)
    | .prevTab => effects (r.switchScreen r.screen.prev)
    | action =>
      match r.screen with
      | .dataplane =>
        if action = .select ∨ action = .back then quiet { r with confirm := some .goOn }
        else quiet r
      | .settings => r.handleSettingsKey action
      | .logs => r.handleLogsKey action

end Monitor
end TunnelBoard
