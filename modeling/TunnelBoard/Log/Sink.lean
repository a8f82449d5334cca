import TunnelBoard.Log.Ring
/-
  The place log lines are written to, and captures that redirect it into memory for a while.

  Every capture has a ring of its own.  Enabling a capture points the sink at that ring and
  remembers where it pointed before; disabling it points the sink back there.  A capture that goes
  away is disabled first.
-/

namespace TunnelBoard

/-- Where written bytes go. -/
inductive SinkTarget where
  | stderr
  /-- The ring of the capture with this number. -/
  | buffer (capture : Nat)
  | discard
  deriving DecidableEq, Repr

/-- What the sink pointed at when each capture was enabled; `none` for one that is not enabled. -/
structure Sink where
  target : SinkTarget
  rings : List LogRing
  previous : List (Option SinkTarget)
  deriving Repr

namespace Sink

/-- A sink with `n` captures over it, none of them enabled. -/
def make (target : SinkTarget) (n ringCapacity : Nat) : Sink :=
  ⟨target, List.replicate n (LogRing.empty ringCapacity), List.replicate n none⟩

/-- Whether written bytes go to some ring. -/
def capturing (s : Sink) : Bool :=
  match s.target with
  | .buffer _ => true
  | _ => false

/-- Whether a capture is enabled. -/
def enabled (s : Sink) (c : Nat) : Bool := (s.previous.getD c none).isSome

/-- Point the sink at the ring of a capture, unless the capture is enabled already. -/
def enable (s : Sink) (c : Nat) : Sink :=
  if s.enabled c then s
  else { s with target := .buffer c, previous := s.previous.set c (some s.target) }

/-- Point the sink back to where it pointed before the capture was enabled. -/
def disable (s : Sink) (c : Nat) : Sink :=
  match s.previous.getD c none with
  | none => s
  | some target => { s with target, previous := s.previous.set c none }

/-- Write bytes to a target, wherever the sink points now. -/
def writeTo (s : Sink) (target : SinkTarget) (bytes : List UInt8) : Sink :=
  match target with
  | .buffer c => { s with rings := s.rings.modify c (·.write bytes) }
  | _ => s

/-- Write bytes. -/
def write (s : Sink) (bytes : List UInt8) : Sink := s.writeTo s.target bytes

end Sink

/-! ## Owners of captures -/

/-- What the owner of one of `n` captures may do with it. -/
inductive CaptureMove (n : Nat) where
  | enable (c : Fin n)
  | disable (c : Fin n)
  /-- The capture goes away. -/
  | drop (c : Fin n)
  deriving DecidableEq, Repr

namespace Sink

/-- The sink after a move. -/
def move {n : Nat} (s : Sink) : CaptureMove n → Sink
  | .enable c => s.enable c
  | .disable c | .drop c => s.disable c

/-- The sink after some moves. -/
def moveAll {n : Nat} (s : Sink) (moves : List (CaptureMove n)) : Sink := moves.foldl move s

end Sink
end TunnelBoard
