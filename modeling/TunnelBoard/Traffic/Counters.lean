/-
  Byte counters and the rates between two readings of them.

  The counters are 64-bit words and wrap around.  A reading gives the totals, and the bytes per
  second since the reading before: zero for the first one, and when less than a millisecond has
  passed.  A counter that stands below where it stood before counts as one that has not moved.
-/

namespace TunnelBoard

/-- Traffic at one moment, in bytes and bytes per second. -/
structure Snapshot where
  rxRate : Nat
  txRate : Nat
  rxTotal : Nat
  txTotal : Nat
  deriving DecidableEq, Repr, Inhabited

namespace Snapshot

/-- No traffic at all. -/
def zero : Snapshot := ⟨0, 0, 0, 0⟩

end Snapshot

/-- The largest 64-bit number. -/
def wordMax : Nat := Nat.pow 2 64 - 1

/-- The two ways that traffic goes. -/
inductive Direction where
  | rx
  | tx
  deriving DecidableEq, Repr

/-- A reading of the counters: when, in nanoseconds, and the totals. -/
structure Reading where
  time : Int
  rx : UInt64
  tx : UInt64
  deriving DecidableEq, Repr

/-- Byte counters with the last reading of them. -/
structure Counters where
  rx : UInt64
  tx : UInt64
  last : Option Reading
  deriving DecidableEq, Repr

/-- Bytes per second, for `delta` bytes in `elapsedMs` milliseconds. -/
def perSecond (delta elapsedMs : Nat) : Nat := min wordMax (delta * 1000 / elapsedMs)

namespace Counters

def zero : Counters := ⟨0, 0, none⟩

def recordRx (c : Counters) (bytes : Nat) : Counters := { c with rx := c.rx + UInt64.ofNat bytes }

def recordTx (c : Counters) (bytes : Nat) : Counters := { c with tx := c.tx + UInt64.ofNat bytes }

/-- Read the counters at a time in nanoseconds, which may lie before the last reading. -/
def readAt (c : Counters) (now : Int) : Snapshot × Counters :=
  let rates :=
    match c.last with
    | none => (0, 0)
    | some prev =>
      let elapsed := (now - prev.time).toNat / 1000000
      if elapsed = 0 then (0, 0)
      else
        (perSecond (c.rx.toNat - prev.rx.toNat) elapsed,
          perSecond (c.tx.toNat - prev.tx.toNat) elapsed)
  (⟨rates.1, rates.2, c.rx.toNat, c.tx.toNat⟩, { c with last := some ⟨now, c.rx, c.tx⟩ })

/-- Read the counters by a clock that counts microseconds. -/
def read (c : Counters) (now : Int) : Snapshot × Counters := c.readAt (now * 1000)

end Counters

/-! ## Runs -/

/-- What is done to counters. -/
inductive TrafficStep where
  | record (way : Direction) (bytes : Nat)
  | snapshot (now : Int)
  deriving DecidableEq, Repr

namespace Counters

def step (c : Counters) : TrafficStep → Counters
  | .record .rx bytes => c.recordRx bytes
  | .record .tx bytes => c.recordTx bytes
  | .snapshot now => (c.readAt now).2

/-- New counters after some steps. -/
def after (steps : List TrafficStep) : Counters := steps.foldl step zero

end Counters
end TunnelBoard
