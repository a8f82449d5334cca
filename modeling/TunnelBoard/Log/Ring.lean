import TunnelBoard.Text.Utf8
/-
  The newest lines of a log, kept in memory.

  Bytes come in pieces of any size.  A line is complete at its line feed; a carriage return in
  front of that is dropped.  Bytes after the last line feed wait for the rest of their line and
  are not shown.

  The lines are kept in a ring of places, and the next line always goes to the place `head`, whether
  that is free or holds the oldest line.  So the newest lines are the ones before `head`, going back
  over the end of the ring.  A flag says whether lines came in since the flag was last taken.
-/

namespace TunnelBoard

/-- Cut bytes at their line feeds: the complete lines, and what is left after the last one. -/
def completeLines : List UInt8 → List (List UInt8) × List UInt8
  | [] => ([], [])
  | b :: bytes =>
    let (lines, rest) := completeLines bytes
    if b = 10 then ([] :: lines, rest)
    else
      match lines with
      | [] => ([], b :: rest)
      | line :: lines => ((b :: line) :: lines, rest)

/-- The text of a complete line. -/
def lineText (bytes : List UInt8) : Text :=
  decodeLossy (if bytes.getLast? = some 13 then bytes.dropLast else bytes)

/-- A ring of lines. -/
structure LogRing where
  slots : List Text
  /-- The place that the next line goes to. -/
  head : Nat
  /-- How many places hold lines. -/
  count : Nat
  /-- The start of a line that is not complete yet. -/
  unfinished : List UInt8
  /-- Whether a line was completed since this was last taken. -/
  changed : Bool
  head_lt : head < slots.length
  count_le : count ≤ slots.length
  deriving Repr

namespace LogRing

/-- How many lines there is room for. -/
def capacity (r : LogRing) : Nat := r.slots.length

/-- A ring for `capacity` lines, at least one. -/
def empty (capacity : Nat) : LogRing where
  slots := List.replicate (max capacity 1) []
  head := 0
  count := 0
  unfinished := []
  changed := false
  head_lt := by rw [List.length_replicate]; omega
  count_le := Nat.zero_le _

/-! ## Adding lines -/

/-- Put a complete line in its place. -/
def push (r : LogRing) (line : List UInt8) : LogRing :=
  { r with
    slots := r.slots.set r.head (lineText line)
    head := (r.head + 1) % r.capacity
    count := if r.count < r.capacity then r.count + 1 else r.count
    head_lt := by
      rw [List.length_set]
      exact Nat.mod_lt _ (Nat.lt_of_le_of_lt (Nat.zero_le _) r.head_lt)
    count_le := by
      have hle := r.count_le
      rw [List.length_set]
      unfold capacity
      split
      · assumption
      · exact hle }

/-- Complete a line with its last bytes. -/
def complete (r : LogRing) (segment : List UInt8) : LogRing :=
  if r.unfinished.isEmpty then r.push segment
  else { r with unfinished := [] }.push (r.unfinished ++ segment)

/-- Add bytes, completing a line at every line feed; `true` if that completed any. -/
def append (r : LogRing) (bytes : List UInt8) : LogRing × Bool :=
  let (segments, rest) := completeLines bytes
  let r := segments.foldl complete r
  ({ r with unfinished := r.unfinished ++ rest }, !segments.isEmpty)

/-- Tell that lines came in. -/
def announce (r : LogRing) : LogRing := { r with changed := true }

/-- Add bytes, and tell if that completed a line. -/
def write (r : LogRing) (bytes : List UInt8) : LogRing :=
  let (r, completed) := r.append bytes
  if completed then r.announce else r

/-- Add a whole line of text. -/
def writeLine (r : LogRing) (line : Text) : LogRing := r.write (encode line ++ [10])

/-! ## Reading them -/

/-- The place of the oldest of the newest `n` lines. -/
def startOfLast (r : LogRing) (n : Nat) : Nat := (r.head + r.capacity - n) % r.capacity

/-- The newest `n` lines, oldest first.  They are copied in two parts if they go over the end of the
    ring. -/
def tail (r : LogRing) (n : Nat) : List Text :=
  let n := min n r.count
  if n = 0 then []
  else
    let start := r.startOfLast n
    if start + n ≤ r.capacity then (r.slots.drop start).take n
    else r.slots.drop start ++ r.slots.take (n - (r.capacity - start))

/-- All lines, oldest first. -/
def lines (r : LogRing) : List Text := r.tail r.count

/-- Put the newest lines over the first places of `dst`, as many as asked for and as there are
    places, and say how many that were. -/
def tailInto (r : LogRing) (dst : List Text) (n : Nat) : Nat × List Text :=
  let n := min (min n r.count) dst.length
  if n = 0 then (0, dst)
  else
    let start := r.startOfLast n
    (n, dst.mapIdx fun i old => if i < n then r.slots.getD ((start + i) % r.capacity) [] else old)

/-- Take the flag. -/
def takeChange (r : LogRing) : Bool × LogRing := (r.changed, { r with changed := false })

end LogRing

/-! ## Sources of log lines -/

/-- Where the lines of the logs screen come from. -/
inductive LogFeed where
  | ring
  /-- No lines at all. -/
  | empty
  deriving DecidableEq, Repr

/-- A feed, and whether it tells when lines come in; otherwise it is read again and again. -/
structure LogSource where
  feed : LogFeed
  observable : Bool
  deriving DecidableEq, Repr

namespace LogFeed

/-- The newest `n` lines of a feed, given the ring. -/
def tail (feed : LogFeed) (r : LogRing) (n : Nat) : List Text :=
  match feed with
  | ring => r.tail n
  | empty => []

def tailInto (feed : LogFeed) (r : LogRing) (dst : List Text) (n : Nat) : Nat × List Text :=
  match feed with
  | ring => r.tailInto dst n
  | empty => (0, dst)

end LogFeed
end TunnelBoard
