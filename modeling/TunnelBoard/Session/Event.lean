import TunnelBoard.Failure
import TunnelBoard.Log.Record
import TunnelBoard.Mode
/-
  What a session tells its owner, and the bounded buffer the owner reads it from.

  A terminal event is the last one of a session.  When the buffer is full an ordinary event is
  dropped, while a terminal one takes the place of the oldest, so that an owner who reads late
  still learns how the session ended.
-/

namespace TunnelBoard

inductive Event where
  | modeSelected (mode : Mode)
  /-- The operator wants to choose a mode again. -/
  | reconfigure
  | runtimeDisconnected
  | exit
  | error (cause : SessionError)
  deriving DecidableEq, Repr

namespace Event

/-- Whether the session ends with this event. -/
def isTerminal : Event → Bool
  | exit => true
  | error _ => true
  | _ => false

end Event

/-! ## How events appear in the log -/

/-- A failure as a log field shows it. -/
def Failure.debugText : Failure → Text
  | .invalidConfig d => labelled "InvalidConfig" [("details", quoted d)]
  | .missingConfig p => labelled "MissingConfig" [("path", quoted p)]
  | .configParse c d => labelled "ConfigParse" [("context", quoted c), ("details", quoted d)]
  | .serialization c d => labelled "Serialization" [("context", quoted c), ("details", quoted d)]
  | .fileAccess p c => labelled "Io" [("path", quoted p), ("source", quoted c)]
  | .channelClosed c => labelled "ChannelClosed" [("component", quoted c)]
  | .terminal c =>
    labelled "Terminal"
      [("source", labelled "Custom" [("kind", "Other".toList), ("error", quoted c)])]
  | .runtime d => labelled "Runtime" [("details", quoted d)]

/-- A session error as a log field shows it. -/
def SessionError.debugText : SessionError → Text
  | .userExit => "UserExit".toList
  | .sessionClosed => "SessionClosed".toList
  | .runtimeDisconnected => "RuntimeDisconnected".toList
  | .configurator d => labelled "Configurator" [("details", quoted d)]
  | .failure f => "Internal(".toList ++ f.debugText ++ ")".toList

/-- An event as a log field shows it. -/
def Event.debugText : Event → Text
  | .modeSelected .tun => "ModeSelected(Tun)".toList
  | .modeSelected .proxy => "ModeSelected(Proxy)".toList
  | .reconfigure => "Reconfigure".toList
  | .runtimeDisconnected => "RuntimeDisconnected".toList
  | .exit => "Exit".toList
  | .error cause => "Error(".toList ++ cause.debugText ++ ")".toList

/-! ## The buffer -/

/-- Events not read yet, oldest first. -/
structure EventQueue where
  capacity : Nat
  events : List Event
  deriving DecidableEq, Repr

namespace EventQueue

/-- The capacity of a session's buffer. -/
def standardCapacity : Nat := 16

def empty (capacity : Nat) : EventQueue := ⟨capacity, []⟩

/-- What is reported when an event makes room for a terminal one. -/
def evictionRecord (old : Event) : LogRecord :=
  logRecord .warn "session event buffer full; evicting oldest event"
    [shownField "evicted" old.debugText]

/-- What is reported when there is no room for an event. -/
def dropRecord (e : Event) : LogRecord :=
  logRecord .warn "session event buffer full; dropping event" [shownField "event" e.debugText]

/-- Add an event.  The records say what had to be given up for want of room. -/
def push (q : EventQueue) (e : Event) : EventQueue × List LogRecord :=
  if q.events.length < q.capacity then ({ q with events := q.events ++ [e] }, [])
  else if e.isTerminal then
    ({ q with events := q.events.drop 1 ++ [e] }, (q.events.take 1).map evictionRecord)
  else (q, [dropRecord e])

/-- Take the oldest event. -/
def take (q : EventQueue) : Option Event × EventQueue :=
  match q.events with
  | [] => (none, q)
  | e :: rest => (some e, { q with events := rest })

/-- Add an event if there is room for it. -/
def trySend (q : EventQueue) (e : Event) : Option EventQueue :=
  if q.events.length < q.capacity then some { q with events := q.events ++ [e] } else none

/-- How an event is added: it is tried to send it until it is in the buffer or given up.  A terminal
    event is not given up, but the oldest one is taken out before the next try.  Nothing comes of it
    if `tries` were not enough. -/
def pushWithin : Nat → EventQueue → Event → Option (EventQueue × List LogRecord)
  | 0, _, _ => none
  | tries + 1, q, e =>
    match q.trySend e with
    | some sent => some (sent, [])
    | none =>
      if e.isTerminal then
        let (old, rest) := q.take
        (pushWithin tries rest e).map fun (after, records) =>
          (after, old.toList.map evictionRecord ++ records)
      else some (q, [dropRecord e])

end EventQueue

/-! ### Histories of a buffer -/

/-- What is done to a buffer. -/
inductive BufferStep where
  | push (e : Event)
  | receive
  deriving DecidableEq, Repr

/-- A buffer with all the events that were pushed and all that were received, oldest first. -/
structure BufferHistory where
  queue : EventQueue
  pushed : List Event
  received : List Event

namespace BufferHistory

def step (h : BufferHistory) : BufferStep → BufferHistory
  | .push e => { h with queue := (h.queue.push e).1, pushed := h.pushed ++ [e] }
  | .receive =>
    let (taken, rest) := h.queue.take
    { h with queue := rest, received := h.received ++ taken.toList }

/-- A new buffer after some steps. -/
def after (capacity : Nat) (steps : List BufferStep) : BufferHistory :=
  steps.foldl step ⟨EventQueue.empty capacity, [], []⟩

end BufferHistory
end TunnelBoard
