import TunnelBoard.Traffic.Counters
/-
  The rates that snapshots show.

  A counter holds the bytes recorded so far, modulo 2^64 (`count_after`), and a snapshot compares it with
  where it stood at the snapshot before.  So its rate is exact as long as the counter did not wrap around
  in between: it is the bytes recorded since, times a thousand, by the whole milliseconds that have passed,
  rounded down and at most what 64 bits hold.

  A counter that wrapped around stands lower than before.  The difference stops at zero, so the snapshot
  after the wrap shows no traffic, however much there was (`rate_lost_over_wrap`).
-/

namespace TunnelBoard

variable {c : Counters} {way : Direction} {steps : List TrafficStep}

/-! ## What a run records -/

namespace TrafficStep

/-- The bytes that a step records one way. -/
def bytes (way : Direction) : TrafficStep → Nat
  | record w n => if w = way then n else 0
  | snapshot _ => 0

/-- Whether a step is a snapshot. -/
def isSnapshot : TrafficStep → Bool
  | record _ _ => false
  | snapshot _ => true

end TrafficStep

/-- The bytes that some steps record one way. -/
def recorded (way : Direction) : List TrafficStep → Nat
  | [] => 0
  | s :: steps => s.bytes way + recorded way steps

/-- Bytes recorded one after the other add up. -/
theorem recorded_append (way : Direction) (front back : List TrafficStep) :
    recorded way (front ++ back) = recorded way front + recorded way back := by
  induction front with
  | nil => exact (Nat.zero_add _).symm
  | cons s front ih => rw [List.cons_append, recorded, recorded, ih, Nat.add_assoc]

/-! ## Counting modulo a word -/

/-- How far a number has come modulo `n`, if it has not come around. -/
theorem mod_sub_mod_of_lt {a b n : Nat} (h : a % n + b < n) : (a + b) % n - a % n = b := by
  rw [← Nat.mod_add_mod, Nat.mod_eq_of_lt h, Nat.add_sub_cancel_left]

/-- A number that has come around modulo `n`, once, stands no higher than before. -/
theorem mod_sub_mod_of_wrapped {a b n : Nat} (hb : b < n) (h : n ≤ a % n + b) :
    (a + b) % n - a % n = 0 := by
  have ha : a % n < n := Nat.mod_lt _ (Nat.lt_of_le_of_lt (Nat.zero_le b) hb)
  rw [← Nat.mod_add_mod, Nat.mod_eq_sub_mod h, Nat.mod_eq_of_lt (by omega)]
  omega

/-! ## One step

The two ways of traffic are counted alike, so everything is said of a way that is given.  A step
records bytes or takes a snapshot. -/

namespace Counters

/-- The counter of one way. -/
def count (c : Counters) : Direction → UInt64
  | .rx => c.rx
  | .tx => c.tx

end Counters

namespace Reading

/-- Where the counter of one way stood. -/
def count (r : Reading) : Direction → UInt64
  | .rx => r.rx
  | .tx => r.tx

end Reading

namespace Snapshot

/-- The rate that a snapshot shows one way. -/
def rate (s : Snapshot) : Direction → Nat
  | .rx => s.rxRate
  | .tx => s.txRate

/-- The total that a snapshot shows one way. -/
def total (s : Snapshot) : Direction → Nat
  | .rx => s.rxTotal
  | .tx => s.txTotal

end Snapshot

namespace Counters

/-- A counter that is added to wraps around at a word. -/
theorem toNat_add_ofNat (a : UInt64) (n : Nat) : (a + UInt64.ofNat n).toNat = (a.toNat + n) % UInt64.size := by
  rw [UInt64.toNat_add, UInt64.toNat_ofNat', Nat.add_mod_mod]

/-- A step adds the bytes it records one way to the counter of that way. -/
theorem count_step (c : Counters) (way : Direction) (s : TrafficStep) :
    ((c.step s).count way).toNat = ((c.count way).toNat + s.bytes way) % UInt64.size := by
  have hsmall : (c.count way).toNat % UInt64.size = (c.count way).toNat :=
    Nat.mod_eq_of_lt (c.count way).toNat_lt_size
  cases s with
  | snapshot now => exact hsmall.symm
  | record w n =>
    cases w with
    | rx =>
      cases way with
      | rx => exact toNat_add_ofNat c.rx n
      | tx => exact hsmall.symm
    | tx =>
      cases way with
      | rx => exact hsmall.symm
      | tx => exact toNat_add_ofNat c.tx n

/-- Only a snapshot changes what the next one is compared with. -/
theorem last_step {s : TrafficStep} (h : s.isSnapshot = false) : (c.step s).last = c.last := by
  cases s with
  | snapshot now => exact absurd h.symm Bool.false_ne_true
  | record w n =>
    cases w with
    | rx => rfl
    | tx => rfl

/-- The total of a snapshot is where the counter stands. -/
theorem total_readAt (c : Counters) (now : Int) (way : Direction) :
    (c.readAt now).1.total way = (c.count way).toNat := by
  cases way with
  | rx => rfl
  | tx => rfl

/-- The first snapshot has nothing to compare with, and shows no traffic. -/
theorem rate_of_first (h : c.last = none) (now : Int) (way : Direction) :
    (c.readAt now).1.rate way = 0 := by
  unfold readAt
  rw [h]
  cases way with
  | rx => rfl
  | tx => rfl

/-- The rate of a snapshot, from where the counter stands and where it stood. -/
theorem rate_of_later {prev : Reading} (h : c.last = some prev) (now : Int) (way : Direction) :
    (c.readAt now).1.rate way =
      if (now - prev.time).toNat / 1000000 = 0 then 0
      else perSecond ((c.count way).toNat - (prev.count way).toNat)
        ((now - prev.time).toNat / 1000000) := by
  unfold readAt
  rw [h]
  dsimp only
  -- below a millisecond the difference is not looked at
  split
  · cases way with
    | rx => rfl
    | tx => rfl
  · cases way with
    | rx => rfl
    | tx => rfl

/-! ## Runs

Without a snapshot in between, the counter grows by what was recorded, modulo a word.  The difference
of two snapshots is that sum unless the counter has wrapped around. -/

/-- Some steps add all bytes that they record. -/
theorem count_foldl (c : Counters) (way : Direction) (steps : List TrafficStep) :
    ((steps.foldl step c).count way).toNat = ((c.count way).toNat + recorded way steps) % UInt64.size := by
  induction steps generalizing c with
  | nil => exact (Nat.mod_eq_of_lt (c.count way).toNat_lt_size).symm
  | cons s steps ih =>
    rw [List.foldl_cons, ih, count_step, Nat.mod_add_mod, recorded, Nat.add_assoc]

/-- A counter holds the bytes recorded so far, modulo 2^64. -/
theorem count_after (way : Direction) (steps : List TrafficStep) :
    ((after steps).count way).toNat = recorded way steps % UInt64.size := by
  have hzero : (zero.count way).toNat = 0 := by
    cases way with
    | rx => rfl
    | tx => rfl
  rw [after, count_foldl, hzero, Nat.zero_add]

/-- Without a snapshot among them, steps leave what the next one is compared with. -/
theorem last_foldl (c : Counters) (h : ∀ s ∈ steps, s.isSnapshot = false) :
    (steps.foldl step c).last = c.last := by
  induction steps generalizing c with
  | nil => rfl
  | cons s steps ih =>
    rw [List.foldl_cons, ih (c.step s) fun s' hs' => h s' (List.mem_cons_of_mem _ hs'),
      last_step (h s List.mem_cons_self)]

/-- What a snapshot is compared with is the snapshot before it. -/
theorem last_after {before since : List TrafficStep} {last : Int}
    (h : ∀ s ∈ since, s.isSnapshot = false) :
    (after (before ++ .snapshot last :: since)).last =
      some ⟨last, (after before).rx, (after before).tx⟩ := by
  rw [after, List.foldl_append, List.foldl_cons, last_foldl _ h]
  rfl

/-- **Rates are exact unless the counter wraps around**: in every run the totals of a snapshot are the bytes
    recorded so far modulo 2^64.  Its rates are zero if it is the first one or if less than a millisecond
    has passed since the one before.  Otherwise they tell the bytes recorded since, unless the counter
    wrapped around in between, and then they are zero. -/
theorem rates_exact_unless_wrapped (history : List TrafficStep) (now : Int) (way : Direction) :
    let shown := ((after history).readAt now).1
    shown.total way = recorded way history % UInt64.size ∧
      ((∀ s ∈ history, s.isSnapshot = false) → shown.rate way = 0) ∧
      ∀ before last since, history = before ++ .snapshot last :: since →
        (∀ s ∈ since, s.isSnapshot = false) →
        let elapsed := (now - last).toNat / 1000000
        let bytes := recorded way since
        let start := recorded way before % UInt64.size
        (elapsed = 0 → shown.rate way = 0) ∧
          (elapsed ≠ 0 → start + bytes < UInt64.size →
            shown.rate way = min wordMax (bytes * 1000 / elapsed)) ∧
          (elapsed ≠ 0 → bytes < UInt64.size → UInt64.size ≤ start + bytes → shown.rate way = 0) := by
  intro shown
  have htotal : ((after history).count way).toNat = recorded way history % UInt64.size := count_after way history
  refine ⟨(total_readAt _ now way).trans htotal, fun hnone => ?_, ?_⟩
  · exact rate_of_first (last_foldl zero hnone) now way
  · intro before last since hhistory hsince elapsed bytes start
    have hlast : (after history).last = some ⟨last, (after before).rx, (after before).tx⟩ := by
      rw [hhistory]
      exact last_after hsince
    have hstart : (Reading.count ⟨last, (after before).rx, (after before).tx⟩ way).toNat = start := by
      refine Eq.trans ?_ (count_after way before)
      cases way with
      | rx => rfl
      | tx => rfl
    -- the counter stands at all bytes, and stood at those before the last snapshot
    have hall : recorded way history = recorded way before + bytes := by
      rw [hhistory, recorded_append]
      exact congrArg (recorded way before + ·) (Nat.zero_add bytes)
    have hrate := rate_of_later hlast now way
    rw [htotal, hstart, hall] at hrate
    refine ⟨fun hshort => ?_, fun hlong hroom => ?_, fun hlong hword hwrap => ?_⟩
    · exact hrate.trans (if_pos hshort)
    · rw [mod_sub_mod_of_lt hroom] at hrate
      exact hrate.trans (if_neg hlong)
    · -- it stands no higher than it stood, and the difference stops at zero
      rw [mod_sub_mod_of_wrapped hword hwrap] at hrate
      refine hrate.trans ((if_neg hlong).trans ?_)
      rw [perSecond, Nat.zero_mul, Nat.zero_div, Nat.min_zero]

/-- A counter one byte short of 2^64, and two bytes more in the second between two snapshots: the rate is
    not two bytes per second but zero. -/
theorem rate_lost_over_wrap :
    let since : List TrafficStep := [.record .rx 2]
    let history : List TrafficStep := .record .rx wordMax :: .snapshot 0 :: since
    let shown := ((after history).readAt 1000000000).1
    let elapsed := ((1000000000 : Int) - 0).toNat / 1000000
    let bytes := recorded .rx since
    elapsed ≠ 0 ∧ bytes < UInt64.size ∧
      shown.rate .rx ≠ min wordMax (bytes * 1000 / elapsed) ∧ shown.rate .rx = 0 := by
  decide

end Counters
end TunnelBoard
