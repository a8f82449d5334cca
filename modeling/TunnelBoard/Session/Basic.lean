import TunnelBoard.ModePicker
import TunnelBoard.Monitor.Basic
/-
  The session: what the operator is doing, from choosing a mode to the end.

  There are four phases.  The operator picks a mode; the owner starts the data plane; its monitor
  is shown until it stops or the operator wants to choose again; and a failure reported by the owner
  stays on the screen until it is dismissed.  `update` takes one message and gives the next state and
  the effects to carry out; it does nothing else.  Once the session is over, nothing changes it.
-/

namespace TunnelBoard

inductive Phase where
  | configuring | waiting | runtime | fatal
  deriving DecidableEq, Repr

def Phase.name : Phase → Text
  | .configuring => "configuring".toList
  | .waiting => "waiting".toList
  | .runtime => "runtime".toList
  | .fatal => "fatal".toList

structure Session where
  phase : Phase
  size : TerminalSize
  /-- The number of the newest activation. -/
  activationSeq : Nat
  prefs : Preferences
  picker : Option ModePicker
  monitor : Option Monitor
  fatal : Option FatalReport
  /-- The mode whose data plane is being started. -/
  pendingMode : Option Mode
  /-- The mode of the newest activation. -/
  lastMode : Option Mode
  /-- Whether the session is over. -/
  terminated : Bool
  settings : DashboardConfig
  modes : List Mode
  logs : LogSource
  /-- What keeps the session from beginning. -/
  startError : Option SessionError
  /-- The scopes of earlier activations that have ended. -/
  ended : List Scope

namespace Session

/-- A session at its beginning. -/
def make (config : Config) (prefs : Preferences) (logs : LogSource) (size : TerminalSize) :
    Session :=
  let picker := ModePicker.make config.modes none
  { phase := .configuring
    size
    activationSeq := 0
    prefs
    picker := picker.toOption
    monitor := none
    fatal := none
    pendingMode := none
    lastMode := none
    terminated := false
    settings := config.dashboard
    modes := config.modes
    logs
    startError :=
      match picker with
      | .ok _ => none
      | .error e => some e
    ended := [] }

/-- Whether a scope of the session has ended. -/
def hasEnded (s : Session) (scope : Scope) : Bool :=
  s.ended.contains scope || s.monitor.any (·.ended.contains scope)

/-- The effects that end a session. -/
def farewell (e : Event) : Command Effect := .batch [.one (.emit e), .one .quit]

/-- The first effects: none, or the end if there is no mode to pick. -/
def init (s : Session) : Session × Command Effect :=
  match s.startError with
  | none => (s, .none)
  | some e => ({ s with terminated := true, startError := none }, farewell (.error e))

/-! ## Transitions -/

/-- The operator or the owner leaves. -/
def exit (s : Session) : Session × Command Effect :=
  ({ s with terminated := true, monitor := s.monitor.map Monitor.stopWaits }, farewell .exit)

/-- Take down the monitor, if one is up. -/
def stopMonitor (s : Session) : Session :=
  match s.monitor with
  | none => s
  | some r => { s with monitor := none, ended := s.ended ++ r.stopWaits.ended }

/-- Show the monitor of a data plane that was waited for. -/
def activate (s : Session) (a : Activation) : Session × Command Effect :=
  if s.phase ≠ .waiting then (s, .none)
  else
    let seq := s.activationSeq + 1
    let (r, command) := Monitor.start seq a s.prefs s.logs s.settings s.size
    ({ s with
        activationSeq := seq
        monitor := some r
        phase := .runtime
        lastMode := some a.mode
        pendingMode := none }, command)

/-- The data plane stopped; wait for the next one. -/
def disconnect (s : Session) : Session × Command Effect :=
  ({ s.stopMonitor with phase := .waiting, pendingMode := s.lastMode },
    .one (.emit .runtimeDisconnected))

/-- Back to the choice of a mode. -/
def reconfigure (s : Session) : Session × Command Effect :=
  match ModePicker.make s.modes s.lastMode with
  | .ok picker =>
    ({ s.stopMonitor with picker := some picker, phase := .configuring },
      .one (.emit .reconfigure))
  | .error e => ({ s.stopMonitor with terminated := true }, farewell (.error e))

def showFatal (s : Session) (report : FatalReport) : Session × Command Effect :=
  ({ s.stopMonitor with picker := none, fatal := some report, phase := .fatal }, .none)

/-- Preferences from outside. -/
def setPreferences (s : Session) (p : Preferences) : Session × Command Effect :=
  ({ s with prefs := p, monitor := s.monitor.map (·.setPreferences p) },
    if p.theme ≠ s.prefs.theme then .one .clearScreen else .none)

/-! ## Keys -/

/-- An action of the operator while a mode is picked. -/
def pick (s : Session) (action : Action) : Session × Command Effect :=
  match s.picker with
  | none => (s, .none)
  | some picker =>
    match picker.handle action with
    | .pending picker => ({ s with picker := some picker }, .none)
    | .selected mode =>
      ({ s with phase := .waiting, pendingMode := some mode }, .one (.emit (.modeSelected mode)))
    | .cancelled => s.exit

/-- An action of the operator on the monitor. -/
def operate (s : Session) (action : Action) : Session × Command Effect :=
  match s.monitor with
  | none => (s, .none)
  | some r =>
    let u := r.handleKey action
    let s := { s with monitor := some u.monitor }
    match u.request with
    | none => (s, u.command)
    | some (.preferencesChanged p) => ({ s with prefs := p }, u.command)
    | some .reconfigure =>
      let (s, command) := s.reconfigure
      (s, .ofList [u.command, command])

def handleAction (s : Session) (action : Action) : Session × Command Effect :=
  match s.phase with
  | .configuring => if action = .quit then s.exit else s.pick action
  | .waiting => if action = .quit then s.exit else (s, .none)
  | .runtime => if action = .quit then s.exit else s.operate action
  | .fatal => if action.dismissesFatal then s.exit else (s, .none)

/-! ## The reducer -/

/-- Whether results of an activation are wanted. -/
def isLive (s : Session) (seq : Nat) : Bool := s.phase = .runtime && seq = s.activationSeq

/-- The result of a task of an activation. -/
def handleResult (s : Session) (seq : Nat) (result : TaskResult) : Session × Command Effect :=
  match s.isLive seq, s.monitor with
  | true, some r =>
    let (r, command) := r.handleResult result
    ({ s with monitor := some r }, command)
  | _, _ => (s, .none)

/-- The state after one message, and the effects it asks for. -/
def update (s : Session) (m : Message) : Session × Command Effect :=
  if s.terminated then (s, .none)
  else
    match m with
    | .key k =>
      match k.action? with
      | some action => s.handleAction action
      | none => (s, .none)
    | .resize size =>
      ({ s with size, monitor := s.monitor.map (·.resize size) }, .one .clearScreen)
    | .activate a => s.activate a
    | .contextEnded seq => if s.isLive seq then s.disconnect else (s, .none)
    | .result seq r => s.handleResult seq r
    | .showFatal report => s.showFatal report
    | .preferencesChanged p => s.setPreferences p
    | .close => s.exit

end Session
end TunnelBoard
