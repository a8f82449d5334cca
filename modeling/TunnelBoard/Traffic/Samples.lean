/-
  The most recent rate samples of one direction.

  Forty slots are written round and round: `cursor` is the slot the next sample goes to, `count`
  the number of slots written so far, at most forty.  `recent` reads the newest ones back, oldest
  first.
-/

namespace TunnelBoard

/-- How many samples are kept. -/
def sampleCapacity : Nat := 40

/-- A ring of slots with the newest sample just before `cursor`. -/
structure Samples where
  slots : List Nat
  cursor : Nat
  count : Nat
  deriving DecidableEq, Repr

/-- The newest `n` of the `count` samples written before `cursor`, oldest first. -/
def recentSlots (slots : List Nat) (count cursor n : Nat) : List Nat :=
  let size := slots.length
  let n := min (min n count) size
  (List.range n).map fun i => slots.getD ((cursor % size + size - n + i) % size) 0

namespace Samples

def empty : Samples := ⟨List.replicate sampleCapacity 0, 0, 0⟩

/-- Write a sample over the oldest slot. -/
def push (r : Samples) (value : Nat) : Samples where
  slots := r.slots.set r.cursor value
  cursor := (r.cursor + 1) % sampleCapacity
  count := min (r.count + 1) sampleCapacity

/-- Start afresh. -/
def clear (_ : Samples) : Samples := empty

/-- The sample written last. -/
def latest (r : Samples) : Option Nat :=
  if 0 < r.count then some (r.slots.getD ((r.cursor + sampleCapacity - 1) % sampleCapacity) 0)
  else none

/-- The newest `n` samples, oldest first; fewer if fewer were written. -/
def recent (r : Samples) (n : Nat) : List Nat := recentSlots r.slots r.count r.cursor n

end Samples

/-- What happens to a ring. -/
inductive SampleStep where
  | push (value : Nat)
  | clear
  deriving DecidableEq, Repr

namespace Samples

def step (r : Samples) : SampleStep → Samples
  | .push value => r.push value
  | .clear => r.clear

/-- The ring after some steps from the start. -/
def after (steps : List SampleStep) : Samples := steps.foldl step empty

end Samples
end TunnelBoard
