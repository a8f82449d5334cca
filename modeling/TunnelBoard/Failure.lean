import TunnelBoard.Text.Quoted
/-
  What can go wrong, and how it is reported.

  `Failure` covers configuration, files, serialization and the terminal; each kind has a stable
  code.  `SessionError` is how a dashboard session ends or is interrupted; an operator who leaves
  is one of its cases, not a failure.
-/

namespace TunnelBoard

inductive Failure where
  | invalidConfig (details : Text)
  | missingConfig (path : Text)
  | configParse (context details : Text)
  | serialization (context details : Text)
  | fileAccess (path cause : Text)
  | channelClosed (component : Text)
  | terminal (cause : Text)
  | runtime (details : Text)
  deriving DecidableEq, Repr

namespace Failure

/-- The stable code of the kind of failure. -/
def code : Failure → Text
  | invalidConfig _ => "TUN-1001".toList
  | missingConfig _ => "TUN-1002".toList
  | configParse _ _ => "TUN-1003".toList
  | serialization _ _ => "TUN-2101".toList
  | fileAccess _ _ => "TUN-3002".toList
  | channelClosed _ => "TUN-3003".toList
  | terminal _ => "TUN-3101".toList
  | runtime _ => "TUN-3900".toList

/-- The message without the code in front. -/
def description : Failure → Text
  | invalidConfig details => "invalid configuration: ".toList ++ details
  | missingConfig path => "missing configuration file: ".toList ++ path
  | configParse context details =>
    "configuration parse failure in ".toList ++ context ++ ": ".toList ++ details
  | serialization context details =>
    "serialization failure in ".toList ++ context ++ ": ".toList ++ details
  | fileAccess path cause => "IO failure at ".toList ++ path ++ ": ".toList ++ cause
  | channelClosed component => "channel closed in component ".toList ++ component
  | terminal cause => "terminal failure: ".toList ++ cause
  | runtime details => "runtime failure: ".toList ++ details

def message (f : Failure) : Text := '[' :: f.code ++ "] ".toList ++ f.description

end Failure

/-- How a session ends, or is interrupted. -/
inductive SessionError where
  /-- The operator left. -/
  | userExit
  /-- The session is over and its last event was read before. -/
  | sessionClosed
  /-- The data plane stopped; the session goes on. -/
  | runtimeDisconnected
  /-- There is no mode to choose from. -/
  | configurator (details : Text)
  | failure (cause : Failure)
  deriving DecidableEq, Repr

namespace SessionError

def message : SessionError → Text
  | userExit => "operator exited the dashboard".toList
  | sessionClosed => "[TUN-4001] session closed before a terminal event was emitted".toList
  | runtimeDisconnected => "[TUN-4002] data plane disconnected".toList
  | configurator details => "[TUN-4003] configurator failed: ".toList ++ details
  | failure cause => cause.message

/-- Whether the operator asked for this. -/
def isUserExit : SessionError → Bool
  | userExit => true
  | _ => false

/-- Whether the session can still take a new activation. -/
def isTransient : SessionError → Bool
  | runtimeDisconnected => true
  | _ => false

end SessionError
end TunnelBoard
