import TunnelBoard.Config.Basic
import TunnelBoard.Log.Record
import TunnelBoard.Preferences.Store
import TunnelBoard.Session.Message
/-
  What a session is started with: how it is shown, and whom it works with.
-/

namespace TunnelBoard

structure SessionOptions where
  config : Config
  /-- Whether the session owns the terminal. -/
  interactive : Bool
  /-- The size of the terminal at the beginning, if it is known. -/
  initialSize : Option TerminalSize
  /-- Whether frames are written somewhere. -/
  hasOutput : Bool
  /-- The session is closed when this is cancelled. -/
  context : Option StopToken
  colour : Bool

namespace SessionOptions

/-- The size a session starts with. -/
def size (o : SessionOptions) : TerminalSize := o.initialSize.getD ⟨80, 24⟩

def sizeText : Option TerminalSize → Text
  | none => "None".toList
  | some s => "Some((".toList ++ natText s.columns ++ ", ".toList ++ natText s.rows ++ "))".toList

/-- The options as they appear in reports; the configuration is left out. -/
def debugText (o : SessionOptions) : Text :=
  "SessionOptions \x7b interactive: ".toList ++ boolText o.interactive
    ++ ", initial_size: ".toList ++ sizeText o.initialSize
    ++ ", has_output: ".toList ++ boolText o.hasOutput
    ++ ", color: ".toList ++ (if o.colour then "Enabled" else "Disabled").toList
    ++ ", .. \x7d".toList

/-- The report of a start. -/
def started (o : SessionOptions) : LogRecord :=
  logRecord .debug "session started"
    [shownField "interactive" (boolText o.interactive),
      shownField "cols" (natText o.size.columns), shownField "rows" (natText o.size.rows)]

end SessionOptions

structure SessionDeps where
  store : PreferencesStore
  /-- What the logs screen shows.  Without it, the lines that are captured; without these, none. -/
  logs : Option LogSource
  /-- Whether the program's log goes into memory for as long as the session lasts. -/
  capture : Bool

namespace SessionDeps

/-- The source of the logs screen. -/
def logSource (d : SessionDeps) : LogSource :=
  d.logs.getD (if d.capture then ⟨.ring, true⟩ else ⟨.empty, false⟩)

/-- A store in memory, with standard preferences. -/
def standard : SessionDeps := ⟨.memory .standard [], none, false⟩

end SessionDeps
end TunnelBoard
