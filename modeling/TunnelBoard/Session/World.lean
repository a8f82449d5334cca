import TunnelBoard.Session.Message
/-
  What a session meets outside of itself: the log, the data planes, the traffic and the clock.

  Lines are added to the log first and announced afterwards, and a writer may be between the two.
-/

namespace TunnelBoard

structure World where
  log : LogRing
  /-- How many writers have completed lines of the log and are yet to announce them. -/
  unannounced : Nat
  /-- The owner's scopes that have ended. -/
  ended : List Nat
  /-- The signals that data planes have given, or can give no more. -/
  signals : List Nat
  /-- The traffic that is read next, and after that; the last reading stays. -/
  readings : List Snapshot
  /-- In milliseconds. -/
  clock : Nat
  deriving Repr

namespace World

/-- A world in which nothing has happened yet. -/
def make (log : LogRing) (readings : List Snapshot) : World := ⟨log, 0, [], [], readings, 0⟩

/-- Read the traffic. -/
def readTraffic (w : World) : Snapshot × World :=
  match w.readings with
  | [] => (.zero, w)
  | [s] => (s, w)
  | s :: rest => (s, { w with readings := rest })

/-- Something of the owner's ends. -/
def endScope (w : World) (id : Nat) : World := { w with ended := w.ended ++ [id] }

/-- A data plane gives a signal. -/
def signal (w : World) (id : Nat) : World := { w with signals := w.signals ++ [id] }

/-- A writer adds bytes to the log. -/
def append (w : World) (bytes : List UInt8) : World :=
  let (log, completed) := w.log.append bytes
  { w with log, unannounced := w.unannounced + if completed then 1 else 0 }

/-- A writer announces the lines it completed. -/
def announce (w : World) : World :=
  { w with log := w.log.announce, unannounced := w.unannounced - 1 }

/-- Time passes. -/
def pass (w : World) (time : Nat) : World := { w with clock := w.clock + time }

end World
end TunnelBoard
