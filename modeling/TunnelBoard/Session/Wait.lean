import TunnelBoard.Session.World
/-
  The waits that go on beside a session.

  A wait ends in one of two ways.  When what it waits for has happened it wakes, and then posts its
  message; when its stop token is cancelled it lapses and posts nothing.  If both are the case it
  may do either, and a wait that woke posts in any case.
-/

namespace TunnelBoard

/-- What a wait waits for. -/
inductive Awaited where
  /-- The clock shows `due`. -/
  | tick (seq tickSeq due : Nat)
  | logTick (seq logSeq due : Nat)
  /-- Lines came into the log.  Only one of several waits learns of them. -/
  | logChange (seq logSeq : Nat)
  /-- The context of an activation ends. -/
  | contextEnd (seq : Nat) (context : StopToken)
  /-- The data plane of an activation is up. -/
  | ready (seq signal : Nat)
  /-- The owner wants the session to end. -/
  | farewell (context : StopToken)
  deriving DecidableEq, Repr

namespace Awaited

/-- What is posted when it has happened. -/
def message : Awaited → Message
  | tick seq tickSeq _ => .result seq (.tick tickSeq)
  | logTick seq logSeq _ => .result seq (.logTick logSeq)
  | logChange seq logSeq => .result seq (.logsChanged logSeq)
  | contextEnd seq _ => .contextEnded seq
  | ready seq _ => .result seq .ready
  | farewell _ => .close

/-- The time at which it happens, if that is known beforehand. -/
def due? : Awaited → Option Nat
  | tick _ _ due => some due
  | logTick _ _ due => some due
  | _ => none

/-- Whether it has happened, in a world and with the scopes that have ended. -/
def happened (w : World) (ended : Scope → Bool) : Awaited → Bool
  | tick _ _ due => due ≤ w.clock
  | logTick _ _ due => due ≤ w.clock
  | logChange _ _ => w.log.changed
  | contextEnd _ context => context.cancelled ended
  | ready _ signal => w.signals.contains signal
  | farewell context => context.cancelled ended

/-- The world after a wait has learnt of it. -/
def take (w : World) : Awaited → World
  | logChange _ _ => { w with log := w.log.takeChange.2 }
  | _ => w

/-- What is reported when it has happened. -/
def records : Awaited → List LogRecord
  | farewell _ => [logRecord .info "session context cancelled; closing dashboard" []]
  | _ => []

end Awaited

structure Wait where
  awaited : Awaited
  stop : StopToken
  /-- Whether the wait is over and its message is about to be posted. -/
  woken : Bool
  deriving DecidableEq, Repr

namespace Wait

/-- A wait that begins. -/
def make (awaited : Awaited) (stop : StopToken) : Wait := ⟨awaited, stop, false⟩

/-- Whether a wait can wake. -/
def canWake (w : World) (ended : Scope → Bool) (t : Wait) : Bool :=
  !t.woken && t.awaited.happened w ended

/-- Whether a wait can lapse. -/
def canLapse (ended : Scope → Bool) (t : Wait) : Bool := !t.woken && t.stop.cancelled ended

end Wait
end TunnelBoard
