import TunnelBoard.Session.Loop
/-
  What the owner of a session does with it: calls that wait for the session to answer.

  A call may send a message first, and then reads events until one of them answers it.  A message
  that is refused means that the session is over; then the call looks through the events that were
  left behind for the way it ended.  That way is told once: whoever asks later only learns that the
  session is closed.
-/

namespace TunnelBoard

inductive Call where
  /-- Wait until the operator picks a mode. -/
  | waitMode
  /-- Wait until the data plane is to be left, or was lost. -/
  | waitExit
  /-- Hand over a started data plane. -/
  | activate (a : Activation)
  /-- Show a failure, and wait until the operator dismisses it. -/
  | showFatal (report : FatalReport)
  deriving DecidableEq, Repr

inductive Answer where
  | mode (m : Mode)
  /-- The operator wants to choose a mode again. -/
  | reconfigure
  | done
  | refused (e : SessionError)
  deriving DecidableEq, Repr

/-- How far a call has come. -/
inductive CallStage where
  | sending (m : Message)
  | reading
  /-- The session is over; look for how it ended. -/
  | searching
  | answered (a : Answer)
  deriving DecidableEq, Repr

namespace Call

/-- How a call begins. -/
def begin : Call → CallStage
  | waitMode => .reading
  | waitExit => .reading
  | activate a => .sending (.activate a)
  | showFatal report => .sending (.showFatal report)

/-- How a call goes on when its message was taken. -/
def sent : Call → CallStage
  | activate _ => .answered .done
  | _ => .reading

/-- The answer that the next event gives to a call, or the lack of any further events; `none` if
    the event is of no use to it. -/
def answer? : Call → Option Event → Option Answer
  | waitMode, some (.modeSelected m) => some (.mode m)
  | waitExit, some .reconfigure => some .reconfigure
  | waitExit, some .runtimeDisconnected => some (.refused .runtimeDisconnected)
  | showFatal _, some .exit => some .done
  | _, some .exit => some (.refused .userExit)
  | _, some (.error e) => some (.refused e)
  | _, some _ => none
  | _, none => some (.refused .sessionClosed)

/-- What is reported of an event that is of no use to a call. -/
def ignored (c : Call) (e : Event) : LogRecord :=
  logRecord .debug
    (match c with
      | waitMode => "ignoring event while waiting for mode"
      | waitExit => "ignoring event while waiting for runtime exit"
      | activate _ => "ignoring event while activating"
      | showFatal _ => "ignoring event while fatal screen is up")
    [shownField "event" e.debugText]

end Call

/-- How a session ended, by an event it left behind. -/
def Event.ending? : Event → Option SessionError
  | .exit => some .userExit
  | .error e => some e
  | _ => none

namespace Loop

/-- Whether there will be no more events. -/
def isSilent (l : Loop) : Bool := l.stage = .closed || l.stage = .done

/-- Read the next event for a call; `none` if there is none yet. -/
def readFor (l : Loop) (c : Call) : Option (CallStage × Loop) :=
  match l.takeEvent with
  | some (e, l) =>
    match c.answer? (some e) with
    | some a => some (.answered a, l)
    | none => some (.reading, l.report [c.ignored e])
  | none => if l.isSilent then (c.answer? none).map fun a => (.answered a, l) else none

/-- Look at the next event that a session left behind. -/
def search (l : Loop) : CallStage × Loop :=
  match l.takeEvent with
  | some (e, l) =>
    match e.ending? with
    | some error => (.answered (.refused error), l)
    | none =>
      (.searching, l.report [logRecord .debug "discarding event from a stopped session"
        [shownField "event" e.debugText]])
  | none => (.answered (.refused .sessionClosed), l)

/-- The next step of a call; `none` if it has to wait, or is answered. -/
def stepCall (l : Loop) (c : Call) : CallStage → Option (CallStage × Loop)
  | .sending m =>
    match l.receive m with
    | some l => some (c.sent, l)
    | none => some (.searching, l)
  | .reading => l.readFor c
  | .searching => some l.search
  | .answered _ => none

end Loop
end TunnelBoard
