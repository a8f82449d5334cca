import Mathlib.Data.List.GetD
import Mathlib.Data.List.Rotate
import TunnelBoard.Log.Ring
/-
  A ring of lines is a list of lines.

  Turned round so that its next place comes last, a ring shows its lines in the order in which they
  came in, behind the places that are still free (`LogRing.aged`).  In this view nothing wraps around
  any more: to put a line in its place is to add it at the end and to drop the first one
  (`aged_push`), and the newest lines are the last ones of the list (`tail_eq`), in whichever of the
  two ways they are copied.

  So the theory of the ring is one of the last entries of a list (`lastOf`), and two facts about those
  carry it: to keep the last ones and add some is to add them before and keep the last
  (`lastOf_lastOf_append`), and what stands before the last ones does not matter
  (`lastOf_append_of_le`).  The arithmetic of the places is done once, where a place is written over
  (`rotate_set_next`) and where lines are read from a place on (`take_rotate_startOfLast`).

  A ring grows by the lines that bytes complete (`Grown`).  Bytes that complete no line show nothing
  new, and a ring never holds more lines than it has room for.
-/

namespace TunnelBoard

/-! ## The end of a list

A ring forgets all but its newest lines, and these lemmas say that it does not matter when: to take
the end of a list that was cut before is to take the end of the whole list. -/

/-- The last `n` of a list. -/
def lastOf {α : Type} (n : Nat) (xs : List α) : List α := xs.drop (xs.length - n)

section

variable {α : Type} {n : Nat} {xs : List α}

/-- There are as many as were asked for, or all. -/
theorem length_lastOf (n : Nat) (xs : List α) : (lastOf n xs).length = min n xs.length := by
  rw [lastOf, List.length_drop]
  omega

/-- A short list is kept as a whole. -/
theorem lastOf_of_length_le (h : xs.length ≤ n) : lastOf n xs = xs := by
  rw [lastOf, Nat.sub_eq_zero_of_le h, List.drop_zero]

/-- What stands before the last ones does not matter. -/
theorem lastOf_append_of_le {ys : List α} (h : n ≤ ys.length) : lastOf n (xs ++ ys) = lastOf n ys := by
  rw [lastOf, lastOf, List.length_append, List.drop_append, List.drop_eq_nil_of_le (by omega),
    List.nil_append]
  congr 1
  omega

/-- The last of the last ones. -/
theorem lastOf_lastOf (m n : Nat) (xs : List α) : lastOf m (lastOf n xs) = lastOf (min m n) xs := by
  rw [lastOf, length_lastOf, lastOf, lastOf, List.drop_drop]
  congr 1
  omega

/-- To keep the last ones only, and then to add some, is to add them before. -/
theorem lastOf_lastOf_append (n : Nat) (xs ys : List α) :
    lastOf n (lastOf n xs ++ ys) = lastOf n (xs ++ ys) := by
  rw [lastOf, lastOf, lastOf, List.length_append, List.length_append, List.length_drop]
  rcases Nat.le_total xs.length n with hle | hle
  · rw [Nat.sub_eq_zero_of_le hle, List.drop_zero, Nat.sub_zero]
  · rw [List.drop_append, List.drop_append, List.drop_drop, List.length_drop]
    congr 2
    · omega
    · omega

/-- **To write over a place of a ring**, and to go on to the next, is to add at the end of the list that
    starts at that place, and to drop the first of it. -/
theorem rotate_set_next {i : Nat} (h : i < xs.length) (v : α) :
    (xs.set i v).rotate ((i + 1) % xs.length) = lastOf xs.length (xs.rotate i ++ [v]) := by
  have hfront : (xs.take i).length = i := List.length_take_of_le (Nat.le_of_lt h)
  -- the list from the place on, before and after it is written over
  have hold : xs.rotate i = xs[i] :: (xs.drop (i + 1) ++ xs.take i) := by
    rw [List.rotate_eq_drop_append_take (Nat.le_of_lt h), List.drop_eq_getElem_cons h]
    rfl
  have hnew : (xs.set i v).rotate ((i + 1) % xs.length) = xs.drop (i + 1) ++ (xs.take i ++ [v]) := by
    have hslots : xs.set i v = (xs.take i ++ [v]) ++ xs.drop (i + 1) := by
      rw [List.set_eq_take_append_cons_drop, if_pos h, List.append_assoc]
      rfl
    have hturn : (xs.set i v).rotate ((i + 1) % xs.length) = (xs.set i v).rotate (i + 1) := by
      have hlength : xs.length = (xs.set i v).length := List.length_set.symm
      rw [hlength, List.rotate_mod]
    have hlength : i + 1 = (xs.take i ++ [v]).length := by
      rw [List.length_append, hfront, List.length_singleton]
    rw [hturn, hslots, hlength, List.rotate_append_length_eq, ← hlength]
  have hlength : (xs.rotate i).length = xs.length := List.length_rotate ..
  rw [hnew, lastOf, List.length_append, hlength, List.length_singleton, Nat.add_sub_cancel_left, hold,
    List.cons_append, List.drop_succ_cons, List.drop_zero, List.append_assoc]

/-- To put values over the first places of a list is to put them before the other places. -/
theorem mapIdx_front {f : Nat → α} {front dst : List α} (hlength : front.length = n)
    (hroom : n ≤ dst.length) (hvalue : ∀ i (hi : i < front.length), f i = front[i]) :
    dst.mapIdx (fun i old => if i < n then f i else old) = front ++ dst.drop n := by
  refine List.ext_getElem ?_ fun i h₁ h₂ => ?_
  · rw [List.length_mapIdx, List.length_append, List.length_drop]
    omega
  · rw [List.getElem_mapIdx]
    split
    · rw [List.getElem_append_left (by omega), hvalue i (by omega)]
    · rw [List.getElem_append_right (by omega), List.getElem_drop]
      congr 1
      omega

end

namespace LogRing

variable {r r' r'' : LogRing} {xs ys : List Text}

/-! ## The view of a ring as a list

Read from the oldest place on, a ring is a list with room for so many lines.  Each function on rings
is one on this list. -/

/-- The places of a ring, the oldest first. -/
def aged (r : LogRing) : List Text := r.slots.rotate r.head

/-- Every place is seen. -/
theorem length_aged (r : LogRing) : r.aged.length = r.capacity := List.length_rotate ..

/-- To read on from the place of the oldest of the newest lines is to read those lines. -/
theorem take_rotate_startOfLast (r : LogRing) {n : Nat} (h : n ≤ r.capacity) :
    (r.slots.rotate (r.startOfLast n)).take n = lastOf n r.aged := by
  have hturn : r.slots.rotate (r.startOfLast n) = r.aged.rotate (r.capacity - n) := by
    have hplus : r.head + r.capacity - n = r.head + (r.capacity - n) := Nat.add_sub_assoc h r.head
    rw [aged, List.rotate_rotate, ← hplus]
    exact List.rotate_mod _ _
  have hle : r.capacity - n ≤ r.aged.length := by
    rw [length_aged]
    exact Nat.sub_le _ _
  have hlast : (r.aged.drop (r.capacity - n)).length = n := by
    rw [List.length_drop, length_aged]
    omega
  rw [hturn, List.rotate_eq_drop_append_take hle, List.take_left' hlast, lastOf, length_aged]

/-- The lines are read from one of the places on. -/
theorem startOfLast_lt (r : LogRing) (n : Nat) : r.startOfLast n < r.capacity :=
  Nat.mod_lt _ (Nat.lt_of_le_of_lt (Nat.zero_le _) r.head_lt)

/-- **The newest lines are the last ones**, be they copied in one part or in two. -/
theorem tail_eq (r : LogRing) (n : Nat) : r.tail n = lastOf (min n r.count) r.aged := by
  have hle : min n r.count ≤ r.capacity := Nat.le_trans (Nat.min_le_right _ _) r.count_le
  unfold tail
  dsimp only
  generalize min n r.count = k at hle ⊢
  have hstart := r.startOfLast_lt k
  have hread := r.take_rotate_startOfLast hle
  rw [List.rotate_eq_drop_append_take (Nat.le_of_lt hstart)] at hread
  have hbefore : (r.slots.drop (r.startOfLast k)).length = r.capacity - r.startOfLast k :=
    List.length_drop
  split
  · rename_i hnone
    rw [hnone, lastOf, Nat.sub_zero, List.drop_length]
  · split
    · -- the lines are in one part
      rw [← hread, List.take_append_of_le_length (by omega)]
    · -- they go over the end
      rename_i hover
      have hrest : min (k - (r.capacity - r.startOfLast k)) (r.startOfLast k) =
          k - (r.capacity - r.startOfLast k) := by omega
      have hwhole : (r.slots.drop (r.startOfLast k)).take k = r.slots.drop (r.startOfLast k) :=
        List.take_of_length_le (by omega)
      rw [← hread, List.take_append, hwhole, hbefore, List.take_take, hrest]

/-- There are as many newest lines as were asked for, or all. -/
theorem length_tail (r : LogRing) (n : Nat) : (r.tail n).length = min n r.count := by
  have hle := r.count_le
  rw [tail_eq, length_lastOf, length_aged, capacity]
  omega

/-- All lines of a ring. -/
theorem lines_eq (r : LogRing) : r.lines = lastOf r.count r.aged := by
  rw [lines, tail_eq, Nat.min_self]

/-- Their number is kept beside them. -/
theorem length_lines (r : LogRing) : r.lines.length = r.count := by
  rw [lines, length_tail, Nat.min_self]

/-- The newest lines are the last of all lines. -/
theorem tail_eq_lastOf_lines (r : LogRing) (n : Nat) : r.tail n = lastOf n r.lines := by
  rw [tail_eq, lines_eq, lastOf_lastOf]

/-- The newest lines depend on the lines only, not on whether they have been announced. -/
theorem tail_congr (h : r'.lines = r.lines) (n : Nat) : r'.tail n = r.tail n := by
  rw [tail_eq_lastOf_lines, tail_eq_lastOf_lines, h]

/-- **Copying into places** does for each place what `tail` does for all of them. -/
theorem tailInto_eq (r : LogRing) (dst : List Text) (n : Nat) :
    r.tailInto dst n = ((r.tail (min n dst.length)).length,
      r.tail (min n dst.length) ++ dst.drop (r.tail (min n dst.length)).length) := by
  have hlength : (r.tail (min n dst.length)).length = min (min n r.count) dst.length := by
    rw [length_tail]
    omega
  have hle : min (min n r.count) dst.length ≤ r.capacity := by
    have := r.count_le
    unfold capacity
    omega
  have hsame : min (min n dst.length) r.count = min (min n r.count) dst.length := by omega
  have hread := r.take_rotate_startOfLast hle
  rw [hlength, tail_eq, hsame, ← hread]
  have hroom : min (min n r.count) dst.length ≤ dst.length := Nat.min_le_right _ _
  unfold tailInto
  dsimp only
  generalize min (min n r.count) dst.length = k at hle hroom ⊢
  split
  · -- no line, or no place
    rename_i hnone
    rw [hnone, List.take_zero, List.drop_zero, List.nil_append]
  · have htaken : ((r.slots.rotate (r.startOfLast k)).take k).length = k := by
      rw [List.length_take, List.length_rotate]
      exact Nat.min_eq_left hle
    refine Prod.ext rfl (mapIdx_front htaken hroom fun i hi => ?_)
    have hlt : (r.startOfLast k + i) % r.capacity < r.slots.length :=
      Nat.mod_lt _ (Nat.lt_of_le_of_lt (Nat.zero_le _) r.head_lt)
    rw [List.getD_eq_getElem _ _ hlt, List.getElem_take, List.getElem_rotate]
    congr 1
    rw [Nat.add_comm]
    rfl

/-! ## Growth

A line is written over the oldest place, which becomes the newest by that, and the others keep their
order. -/

/-- A ring keeps its places. -/
theorem capacity_push (r : LogRing) (line : List UInt8) : (r.push line).capacity = r.capacity :=
  List.length_set

/-- **To put a line in its place** is to add it at the end, where the oldest one makes room for it. -/
theorem aged_push (r : LogRing) (line : List UInt8) :
    (r.push line).aged = lastOf r.capacity (r.aged ++ [lineText line]) :=
  rotate_set_next r.head_lt (lineText line)

/-- A line more, as long as there is room. -/
theorem count_push (r : LogRing) (line : List UInt8) :
    (r.push line).count = min r.capacity (r.count + 1) := by
  have hle : r.count ≤ r.capacity := r.count_le
  show (if r.count < r.capacity then r.count + 1 else r.count) = _
  split
  · omega
  · omega

/-- A ring that has got some more lines. -/
structure Grown (r r' : LogRing) (more : List Text) : Prop where
  capacity : r'.capacity = r.capacity
  aged : r'.aged = lastOf r.capacity (r.aged ++ more)
  count : r'.count = min r.capacity (r.count + more.length)

/-- A ring that has got no lines. -/
theorem Grown.refl (r : LogRing) : r.Grown r [] := by
  refine ⟨rfl, ?_, ?_⟩
  · rw [List.append_nil, lastOf_of_length_le (Nat.le_of_eq r.length_aged)]
  · exact (Nat.min_eq_right r.count_le).symm

/-- A line comes in behind the others. -/
theorem Grown.push (h : r.Grown r' xs) (line : List UInt8) :
    r.Grown (r'.push line) (xs ++ [lineText line]) := by
  refine ⟨(r'.capacity_push line).trans h.capacity, ?_, ?_⟩
  · rw [aged_push, h.capacity, h.aged, lastOf_lastOf_append, List.append_assoc]
  · rw [count_push, h.capacity, h.count, List.length_append, List.length_singleton]
    omega

/-- To complete a line uses up its beginning. -/
theorem complete_eq (r : LogRing) (segment : List UInt8) :
    r.complete segment = { r with unfinished := [] }.push (r.unfinished ++ segment) := by
  unfold complete
  split
  · rename_i hnone
    have hempty := List.isEmpty_iff.1 hnone
    have hsame : { r with unfinished := [] } = r := by rw [← hempty]
    rw [hsame, hempty, List.nil_append]
  · rfl

/-- The beginning that was there and a segment are a line. -/
theorem Grown.complete (h : r.Grown r' xs) (segment : List UInt8) :
    r.Grown (r'.complete segment) (xs ++ [lineText (r'.unfinished ++ segment)]) := by
  have hfresh : r.Grown { r' with unfinished := [] } xs := ⟨h.capacity, h.aged, h.count⟩
  rw [complete_eq]
  exact hfresh.push _

/-- No beginning is left by it. -/
theorem unfinished_complete (r : LogRing) (segment : List UInt8) :
    (r.complete segment).unfinished = [] := by
  rw [complete_eq]
  rfl

/-- Segments that follow a complete line are lines of their own. -/
theorem Grown.foldl (h : r.Grown r' xs) (hnone : r'.unfinished = []) (segments : List (List UInt8)) :
    r.Grown (segments.foldl LogRing.complete r') (xs ++ segments.map lineText) ∧
      (segments.foldl LogRing.complete r').unfinished = [] := by
  induction segments generalizing r' xs with
  | nil =>
    rw [List.map_nil, List.append_nil]
    exact ⟨h, hnone⟩
  | cons segment segments ih =>
    have hone := h.complete segment
    rw [hnone, List.nil_append] at hone
    have hall := ih hone (r'.unfinished_complete segment)
    rwa [List.append_assoc] at hall

/-- To add lines is not yet to tell of them. -/
theorem changed_append (r : LogRing) (bytes : List UInt8) :
    (r.append bytes).1.changed = r.changed := by
  have hfoldl : ∀ (segments : List (List UInt8)) (q : LogRing),
      (segments.foldl LogRing.complete q).changed = q.changed := by
    intro segments
    induction segments with
    | nil => exact fun q => rfl
    | cons segment segments ih =>
      intro q
      have hone : (q.complete segment).changed = q.changed := by
        rw [complete_eq]
        rfl
      exact (ih _).trans hone
  exact hfoldl _ r

/-! ## Room -/

/-- Whether a ring has room for the lines it holds. -/
def Bounded (r : LogRing) : Prop := r.lines.length ≤ r.capacity

instance (r : LogRing) : Decidable r.Bounded := inferInstanceAs (Decidable (_ ≤ _))

/-- Every ring has room for its lines. -/
theorem bounded (r : LogRing) : r.Bounded := by
  show r.lines.length ≤ r.capacity
  rw [length_lines]
  exact r.count_le

theorem bounded_empty (capacity : Nat) : (empty capacity).Bounded := (empty capacity).bounded

theorem bounded_append (r : LogRing) (bytes : List UInt8) : (r.append bytes).1.Bounded :=
  (r.append bytes).1.bounded

/-- Without a complete line the lines stay the same. -/
theorem lines_append_of_incomplete {bytes : List UInt8}
    (hnone : (r.append bytes).2 = false) : (r.append bytes).1.lines = r.lines := by
  have hempty : (completeLines bytes).1 = [] := by
    simpa [append] using hnone
  have happend : (r.append bytes).1 = { r with unfinished := r.unfinished ++ (completeLines bytes).2 } := by
    unfold append
    dsimp only
    rw [hempty]
    rfl
  rw [happend]
  rfl

end LogRing
end TunnelBoard
