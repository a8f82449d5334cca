import TunnelBoard.Proofs.Traffic.Sparkline
/-
  A ring of samples is a list of at most forty of them.

  Turned round to start at the cursor, the slots are the last forty of the zeros that a new ring holds and
  the samples written behind them (`Tracks`).  Nothing wraps around in this view: a sample is added at the
  end, whichever slot it goes to, and to clear the ring is to begin a new list.  So what is read from the
  ring can be read from the list instead.
-/

namespace TunnelBoard

namespace SampleStep

/-- The samples behind a step, if `pushed` are those before it. -/
def extend (pushed : List Nat) : SampleStep → List Nat
  | push value => pushed ++ [value]
  | clear => []

/-- The samples that some steps write from the last time on that they clear the ring. -/
def pushed (steps : List SampleStep) : List Nat := steps.foldl extend []

end SampleStep

namespace Samples

variable {r : Samples} {pushed : List Nat}

/-! ## The view of a ring as a list -/

/-- A ring holds the last of the samples written to it, behind the zeros of a new one. -/
structure Tracks (r : Samples) (pushed : List Nat) : Prop where
  length : r.slots.length = sampleCapacity
  cursor_lt : r.cursor < sampleCapacity
  count : r.count = min pushed.length sampleCapacity
  turned : r.slots.rotate r.cursor =
    lastOf sampleCapacity (List.replicate sampleCapacity 0 ++ pushed)

/-- A new ring has no samples yet. -/
theorem tracks_empty : empty.Tracks [] where
  length := List.length_replicate
  cursor_lt := by decide
  count := rfl
  turned := by
    have hroom : (List.replicate sampleCapacity 0).length ≤ sampleCapacity :=
      Nat.le_of_eq List.length_replicate
    rw [List.append_nil, lastOf_of_length_le hroom]
    exact List.rotate_zero _

/-- A sample comes to the end of the list, in whichever slot it is written. -/
theorem Tracks.push (h : r.Tracks pushed) (value : Nat) : (r.push value).Tracks (pushed ++ [value]) where
  length := List.length_set.trans h.length
  cursor_lt := Nat.mod_lt _ (by decide)
  count := by
    have hcount : (r.push value).count = min (r.count + 1) sampleCapacity := rfl
    rw [hcount, h.count, List.length_append, List.length_singleton]
    omega
  turned := by
    have hslot : r.cursor < r.slots.length := h.length ▸ h.cursor_lt
    have hturned := rotate_set_next hslot value
    rw [h.length, h.turned, lastOf_lastOf_append, List.append_assoc] at hturned
    exact hturned

/-- A step does to the list what it does to the ring. -/
theorem Tracks.step (h : r.Tracks pushed) (s : SampleStep) : (r.step s).Tracks (s.extend pushed) := by
  cases s with
  | push value => exact h.push value
  | clear => exact tracks_empty

/-- Several steps do to the list what they do to the ring. -/
theorem Tracks.foldl (h : r.Tracks pushed) (steps : List SampleStep) :
    (steps.foldl Samples.step r).Tracks (steps.foldl SampleStep.extend pushed) := by
  induction steps generalizing r pushed with
  | nil => exact h
  | cons s steps ih => exact ih (h.step s)

/-- **Every ring is a list**, whichever steps it has gone through. -/
theorem tracks_after (steps : List SampleStep) : (after steps).Tracks (SampleStep.pushed steps) :=
  tracks_empty.foldl steps

/-! ## What is read from it -/

/-- The newest samples are the last ones of the list: the zeros are never read. -/
theorem Tracks.recent_eq (h : r.Tracks pushed) (n : Nat) :
    r.recent n = lastOf (min n sampleCapacity) pushed := by
  have hbound : min (min n (min pushed.length sampleCapacity)) sampleCapacity ≤ pushed.length := by omega
  rw [recent, recentSlots_eq, h.turned, h.count, lastOf_lastOf, lastOf_append_of_le hbound, lastOf, lastOf]
  congr 1
  omega

/-- Of the newest samples there are as many as the ring has, if more are asked for. -/
theorem Tracks.length_recent (h : r.Tracks pushed) (n : Nat) :
    (r.recent n).length = min n r.count := by
  rw [h.recent_eq, length_lastOf, h.count]
  omega

/-- The sample written last is the newest one. -/
theorem Tracks.latest_eq (h : r.Tracks pushed) : r.latest = pushed.getLast? := by
  rcases List.eq_nil_or_concat' pushed with rfl | ⟨front, value, rfl⟩
  · have hnone : r.count = 0 := h.count
    rw [latest, hnone]
    rfl
  · have hcount : 0 < r.count := by
      rw [h.count, List.length_append, List.length_singleton, Nat.lt_min]
      exact ⟨Nat.succ_pos _, by decide⟩
    have hone : min (min 1 r.count) sampleCapacity = 1 := by
      rw [Nat.min_eq_left hcount]
      rfl
    -- the slot before the cursor is the one of the newest sample
    have hslot : r.recent 1 =
        [r.slots.getD ((r.cursor + sampleCapacity - 1) % sampleCapacity) 0] := by
      rw [recent, recentSlots, h.length, hone, Nat.mod_eq_of_lt h.cursor_lt]
      rfl
    have hvalue : r.recent 1 = [value] := by
      have hlast : 1 ≤ [value].length := Nat.le_refl 1
      rw [h.recent_eq]
      exact lastOf_append_of_le hlast
    rw [latest, if_pos hcount, List.getLast?_concat, List.singleton_inj.1 (hslot.symm.trans hvalue)]

/-! ## What is drawn of it -/

/-- A line is drawn from the newest samples alone.  So it is the line of any slots that hold them from the
    first one on, with the cursor behind them. -/
theorem Tracks.sparkline_eq (h : r.Tracks pushed) (rest : List Nat) (width : Nat) :
    sparkline r.slots r.count r.cursor width =
      sparkline (r.recent sampleCapacity ++ rest) r.count r.count width := by
  have hle : r.count ≤ sampleCapacity := by
    rw [h.count]
    exact Nat.min_le_right _ _
  have hlength : r.count = (r.recent sampleCapacity).length := by
    rw [h.length_recent, Nat.min_eq_right hle]
  -- slots that hold the samples first, turned round behind them, end in the samples
  have hturned : (r.recent sampleCapacity ++ rest).rotate r.count = rest ++ r.recent sampleCapacity := by
    rw [hlength, List.rotate_append_length_eq]
  have hroom : min r.count width ≤ (r.recent sampleCapacity).length := by
    rw [← hlength]
    exact Nat.min_le_left _ _
  have hsame : lastOf (min r.count width) (r.slots.rotate r.cursor) =
      lastOf (min r.count width) ((r.recent sampleCapacity ++ rest).rotate r.count) := by
    rw [hturned, lastOf_append_of_le hroom, recent, recentSlots_eq, lastOf_lastOf]
    congr 1
    omega
  rw [TunnelBoard.sparkline_eq, TunnelBoard.sparkline_eq, hsame]

/-- A cursor that has come round stands where it stood before. -/
theorem sparkline_mod (slots : List Nat) (count cursor width : Nat) :
    sparkline slots count (cursor % slots.length) width = sparkline slots count cursor width := by
  rw [TunnelBoard.sparkline_eq, TunnelBoard.sparkline_eq, List.rotate_mod]

/-- **A ring of samples is a list of the newest forty.**  After any steps, let `pushed` be the samples
    written since the ring was last cleared: the ring knows how many of them it has, which one is the last,
    and the newest ones of any number in their order; cleared, it is as it was at first; and it is drawn, at
    any width, like its newest samples in slots from the first one on with the cursor behind them, whether
    that one has come round or not.  The slot to be written next is always there. -/
theorem keeps_newest_pushed (steps : List SampleStep) :
    let r := after steps
    let pushed := SampleStep.pushed steps
    let recent := r.recent sampleCapacity
    r.count = min pushed.length 40 ∧
      r.latest = pushed.getLast? ∧
      (∀ n, r.recent n = lastOf (min n (min pushed.length 40)) pushed) ∧
      r.clear = empty ∧
      (∀ width rest,
        let line := sparkline r.slots r.count r.cursor width
        let slots := recent ++ rest
        line = sparkline slots recent.length recent.length width ∧
          line = sparkline slots recent.length (recent.length % slots.length) width) ∧
      r.cursor < r.slots.length := by
  intro r pushed recent
  -- a ring that keeps track of what was pushed is all that is needed
  have h : r.Tracks pushed := tracks_after steps
  have hle : r.count ≤ sampleCapacity := by
    rw [h.count]
    exact Nat.min_le_right _ _
  have hlength : recent.length = r.count := (h.length_recent _).trans (Nat.min_eq_right hle)
  refine ⟨h.count, h.latest_eq, fun n => ?_, rfl, fun width rest => ?_, ?_⟩
  · rw [h.recent_eq, lastOf, lastOf]
    congr 1
    show pushed.length - min n 40 = _
    omega
  · dsimp only
    rw [sparkline_mod, hlength]
    exact ⟨h.sparkline_eq rest width, h.sparkline_eq rest width⟩
  · rw [h.length]
    exact h.cursor_lt

/-- What was written before a ring was cleared is not read again. -/
example : (after [.push 7, .push 8, .clear, .push 3, .push 5]).recent 40 = [3, 5] := by decide

end Samples
end TunnelBoard
