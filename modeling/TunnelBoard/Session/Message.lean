import TunnelBoard.Key
import TunnelBoard.Log.Ring
import TunnelBoard.Preferences.Basic
import TunnelBoard.Scope.Token
import TunnelBoard.Session.Event
import TunnelBoard.Traffic.Counters
/-
  What reaches a session, and what it asks for in return.

  Messages come from the keyboard, from the session's owner, and from tasks that were asked for
  earlier.  Results of tasks carry the number of the activation they belong to, and most of them a
  second number that tells whether they are still wanted.  Effects are what the loop is to do; those
  that wait carry the token that ends the wait.
-/

namespace TunnelBoard

/-- The stretches of work that waits may be tied to. -/
inductive Scope where
  /-- The session. -/
  | session
  /-- One run of the data plane, as the monitor shows it. -/
  | activation (seq : Nat)
  /-- One visit to the logs screen during an activation. -/
  | logVisit (seq visit : Nat)
  /-- Something of the owner's. -/
  | outside (id : Nat)
  deriving DecidableEq, Repr

abbrev StopToken := Token Scope

/-- The size of a terminal in columns and rows. -/
structure TerminalSize where
  columns : Nat
  rows : Nat
  deriving DecidableEq, Repr

/-! ## Messages -/

/-- A started data plane, handed over by the owner. -/
structure Activation where
  mode : Mode
  /-- Cancelled when the data plane stops. -/
  context : StopToken
  /-- The signal that tells when the data plane is up; without one it counts as up at once. -/
  ready : Option Nat
  /-- In seconds. -/
  startedAt : Int
  deriving DecidableEq, Repr

/-- A failure that the owner reports to the operator. -/
structure FatalReport where
  message : Text
  /-- In seconds. -/
  time : Int
  deriving DecidableEq, Repr

/-- Results of tasks of one activation. -/
inductive TaskResult where
  | ready
  | tick (tickSeq : Nat)
  | trafficSampled (tickSeq : Nat) (traffic : Snapshot)
  | logTick (logSeq : Nat)
  | logsChanged (logSeq : Nat)
  | logsFetched (logSeq : Nat) (lines : List Text)
  deriving DecidableEq, Repr

inductive Message where
  | key (k : Key)
  | resize (size : TerminalSize)
  | activate (a : Activation)
  /-- The context of an activation has ended. -/
  | contextEnded (seq : Nat)
  | result (seq : Nat) (r : TaskResult)
  | showFatal (report : FatalReport)
  /-- The preferences were changed from outside. -/
  | preferencesChanged (p : Preferences)
  | close
  deriving DecidableEq, Repr

/-! ## Effects -/

inductive Effect where
  | emit (e : Event)
  /-- End the loop. -/
  | quit
  /-- Repaint the whole screen. -/
  | clearScreen
  | scheduleTick (seq tickSeq after : Nat) (stop : StopToken)
  | scheduleLogTick (seq logSeq after : Nat) (stop : StopToken)
  /-- Wait for the log to change. -/
  | watchLog (seq logSeq : Nat) (stop : StopToken)
  | fetchLogs (seq logSeq : Nat) (feed : LogFeed) (limit : Nat)
  /-- Read the traffic counters of an activation. -/
  | sampleTraffic (seq tickSeq : Nat)
  | awaitContextEnd (seq : Nat) (context stop : StopToken)
  | awaitReady (seq : Nat) (signal : Nat) (stop : StopToken)
  | savePreferences (p : Preferences)
  deriving DecidableEq, Repr

/-- The token that ends an effect's wait, if it waits. -/
def Effect.stop? : Effect → Option StopToken
  | scheduleTick _ _ _ stop => some stop
  | scheduleLogTick _ _ _ stop => some stop
  | watchLog _ _ stop => some stop
  | awaitContextEnd _ _ stop => some stop
  | awaitReady _ _ stop => some stop
  | _ => none

/-- The event an effect emits, if it does. -/
def Effect.event? : Effect → Option Event
  | emit e => some e
  | _ => none

end TunnelBoard
