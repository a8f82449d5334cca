import TunnelBoard.Proofs.Log.Ring
import TunnelBoard.Proofs.Text.Utf8
/-
  A ring of lines shows the newest lines of all bytes that were ever written to it.

  The specification is written on the bytes as a whole: they are split at their line feeds (`segments`),
  and each segment shows a text (`Shows`), read without one carriage return at its end.  A ring gets the
  bytes in pieces instead, and a piece may end anywhere, also inside a character or between the carriage
  return and the line feed.

  What is kept between two pieces is the start of a line (`LogRing.Follows`): the segments so far, and
  after them bytes without a line feed.  A piece without a line feed makes that start longer; any other
  piece ends it with its own first segment (`Cut.append`).  So where the bytes were cut into pieces is
  forgotten at once, and the lines of a ring are a function of the bytes (`refines_lines_written`).
-/

namespace TunnelBoard

/-! ## Bytes and their line feeds

Bytes are cut at their line feeds in one way only.  So the lines that are complete, and the rest that
waits for its line feed, are known from the bytes alone, in however many pieces they came. -/

/-- The complete lines of some bytes, without the line feeds that end them. -/
def segments (bytes : List UInt8) : List (List UInt8) := (bytes.splitOn 10).dropLast

/-- Bytes are segments, each with a line feed after it, and a rest without any. -/
structure Cut (bytes : List UInt8) (segs : List (List UInt8)) (rest : List UInt8) : Prop where
  whole : bytes = segs.flatMap (· ++ [10]) ++ rest
  within : ∀ segment ∈ segs, 10 ∉ segment
  beyond : 10 ∉ rest

namespace Cut

variable {bytes rest : List UInt8} {segs : List (List UInt8)}

/-- No bytes have no line, and nothing waits. -/
theorem nil : Cut [] [] [] where
  whole := rfl
  within := fun _ h => absurd h List.not_mem_nil
  beyond := List.not_mem_nil

/-- Bytes that are split at their line feeds come apart as they were cut. -/
theorem splitOn_eq (h : Cut bytes segs rest) : bytes.splitOn 10 = segs ++ [rest] := by
  obtain ⟨rfl, hwithin, hbeyond⟩ := h
  induction segs with
  | nil =>
    refine List.splitOnP_eq_singleton fun b hb => ?_
    exact beq_eq_false_iff_ne.2 fun h => hbeyond (h ▸ hb)
  | cons segment segs ih =>
    have hrest := ih fun s hs => hwithin s (List.mem_cons_of_mem _ hs)
    -- the first segment is the first part, since it has no line feed of its own
    have hnone : ∀ b ∈ segment, (b == 10) = false := by
      intro b hb
      exact beq_eq_false_iff_ne.2 fun h => hwithin segment List.mem_cons_self (h ▸ hb)
    rw [List.flatMap_cons, List.append_assoc, List.append_assoc, List.singleton_append, List.splitOn,
      List.splitOnP_append_cons_of_forall_mem hnone 10 rfl, List.cons_append, ← hrest]
    rfl

/-- There is one way to cut bytes. -/
theorem segments_eq (h : Cut bytes segs rest) : segments bytes = segs := by
  rw [segments, h.splitOn_eq, List.dropLast_concat]

/-- There are as many complete lines as line feeds. -/
theorem length_eq (h : Cut bytes segs rest) : segs.length = bytes.count 10 := by
  obtain ⟨rfl, hwithin, hbeyond⟩ := h
  induction segs with
  | nil => exact (List.count_eq_zero.2 hbeyond).symm
  | cons segment segs ih =>
    have hrest := ih fun s hs => hwithin s (List.mem_cons_of_mem _ hs)
    have hnone := List.count_eq_zero.2 (hwithin segment List.mem_cons_self)
    rw [List.flatMap_cons, List.append_assoc, List.count_append, List.count_append, hnone, ← hrest,
      List.length_cons, List.count_singleton_self]
    omega

/-- There is no complete line if there is no line feed. -/
theorem eq_nil_iff (h : Cut bytes segs rest) : segs = [] ↔ 10 ∉ bytes := by
  rw [← List.count_eq_zero, ← h.length_eq, List.length_eq_zero_iff]

/-- More bytes make the rest longer, or their first line feed ends the line that the rest began. -/
theorem append {more rest' : List UInt8} {segs' : List (List UInt8)} (h : Cut bytes segs rest)
    (h' : Cut more segs' rest') :
    (segs' = [] ∧ Cut (bytes ++ more) segs (rest ++ rest')) ∨
      ∃ first others, segs' = first :: others ∧
        Cut (bytes ++ more) (segs ++ (rest ++ first) :: others) rest' := by
  obtain ⟨rfl, hwithin, hbeyond⟩ := h
  obtain ⟨rfl, hwithin', hbeyond'⟩ := h'
  cases segs' with
  -- no line feed yet: the rest has become longer
  | nil =>
    refine Or.inl ⟨rfl, ?_, hwithin, List.not_mem_append hbeyond hbeyond'⟩
    rw [List.flatMap_nil, List.nil_append, List.append_assoc]
  -- the first line feed ends what the rest began
  | cons first others =>
    refine Or.inr ⟨first, others, rfl, ?_, ?_, hbeyond'⟩
    · simp only [List.flatMap_append, List.flatMap_cons, List.append_assoc]
    · intro segment hsegment
      rw [List.mem_append, List.mem_cons] at hsegment
      obtain hold | rfl | hnew := hsegment
      · exact hwithin segment hold
      · exact List.not_mem_append hbeyond (hwithin' first List.mem_cons_self)
      · exact hwithin' segment (List.mem_cons_of_mem _ hnew)

/-- A line feed in front of bytes is a line of its own. -/
theorem cons_feed (h : Cut bytes segs rest) : Cut (10 :: bytes) ([] :: segs) rest where
  whole := congrArg (10 :: ·) h.whole
  within := by
    intro segment hsegment
    obtain rfl | hmem := List.mem_cons.1 hsegment
    · exact List.not_mem_nil
    · exact h.within segment hmem
  beyond := h.beyond

/-- A byte that is not a line feed adds none. -/
theorem not_mem_cons {b : UInt8} (hother : b ≠ 10) (h : 10 ∉ bytes) : 10 ∉ b :: bytes := by
  rw [List.mem_cons]
  rintro (hfeed | hmem)
  · exact hother hfeed.symm
  · exact h hmem

/-- Any other byte belongs to the first line. -/
theorem cons_other {b : UInt8} {line : List UInt8} (hother : b ≠ 10)
    (h : Cut bytes (line :: segs) rest) : Cut (b :: bytes) ((b :: line) :: segs) rest where
  whole := congrArg (b :: ·) h.whole
  within := by
    intro segment hsegment
    obtain rfl | hmem := List.mem_cons.1 hsegment
    · exact not_mem_cons hother (h.within line List.mem_cons_self)
    · exact h.within segment (List.mem_cons_of_mem _ hmem)
  beyond := h.beyond

/-- If there is no line, it belongs to the rest. -/
theorem cons_rest {b : UInt8} (hother : b ≠ 10) (h : Cut bytes [] rest) :
    Cut (b :: bytes) [] (b :: rest) where
  whole := congrArg (b :: ·) h.whole
  within := fun _ hmem => absurd hmem List.not_mem_nil
  beyond := not_mem_cons hother h.beyond

end Cut

/-- **Lines are cut where the line feeds are.** -/
theorem cut_completeLines (bytes : List UInt8) :
    Cut bytes (completeLines bytes).1 (completeLines bytes).2 := by
  induction bytes with
  | nil => exact Cut.nil
  | cons b bytes ih =>
    unfold completeLines
    dsimp only
    split
    · rename_i hfeed
      rw [hfeed]
      exact ih.cons_feed
    · rename_i hother
      split
      · rename_i hnone
        rw [hnone] at ih
        exact ih.cons_rest hother
      · rename_i line lines hsome
        rw [hsome] at ih
        exact ih.cons_other hother

/-! ## The text of a line -/

/-- The text that a complete line shows. -/
inductive Shows : List UInt8 → Text → Prop where
  | plain {segment : List UInt8} {text : Text} (ends : ¬ [13] <:+ segment)
      (reads : Decodes segment text) : Shows segment text
  | trimmed {raw : List UInt8} {text : Text} (reads : Decodes raw text) : Shows (raw ++ [13]) text

/-- There is one text that a line shows, and it is the one that is computed. -/
theorem shows_iff {segment : List UInt8} {text : Text} : Shows segment text ↔ text = lineText segment := by
  have hshown : lineText segment =
      decodeLossy (if segment.getLast? = some 13 then segment.dropLast else segment) := rfl
  by_cases hends : segment.getLast? = some 13
  · -- a carriage return at the end is not read
    obtain ⟨raw, rfl⟩ := List.getLast?_eq_some_iff.1 hends
    rw [hshown, if_pos hends, List.dropLast_concat, ← decodes_iff]
    refine ⟨?_, Shows.trimmed⟩
    intro h
    generalize hsegment : raw ++ [13] = segment at h
    cases h with
    | plain ends => exact absurd ⟨raw, hsegment⟩ ends
    | trimmed reads =>
      obtain ⟨rfl, _⟩ := List.append_inj' hsegment rfl
      exact reads
  · have hsuffix : ¬ [13] <:+ segment := by
      rintro ⟨raw, rfl⟩
      exact hends List.getLast?_concat
    rw [hshown, if_neg hends, ← decodes_iff]
    refine ⟨?_, Shows.plain hsuffix⟩
    intro h
    cases h with
    | plain _ reads => exact reads
    | trimmed => exact absurd (List.suffix_append _ _) hsuffix

namespace LogRing

/-! ## Use of a ring -/

/-- What is done with a ring: bytes are written, or the flag is taken. -/
inductive Use where
  | write (bytes : List UInt8)
  | take

/-- A ring after it has been used once more. -/
def after (r : LogRing) : Use → LogRing
  | .write bytes => r.write bytes
  | .take => r.takeChange.2

/-- All bytes that were written. -/
def written (uses : List Use) : List UInt8 :=
  uses.flatMap fun
    | .write bytes => bytes
    | .take => []

/-- How many signals are taken: the times that the flag was found set. -/
def taken (r : LogRing) : List Use → Nat
  | [] => 0
  | .write bytes :: uses => taken (r.write bytes) uses
  | .take :: uses => (if r.takeChange.1 then 1 else 0) + taken r.takeChange.2 uses

/-! ## What a ring holds

A ring that follows some bytes has been given the complete lines among them and keeps the rest.  That
is all that the next piece needs, so it stays true through every use of a ring. -/

/-- A ring after some bytes: it has got the complete lines among them, and the rest waits. -/
structure Follows (capacity : Nat) (bytes : List UInt8) (r : LogRing) : Prop where
  cut : Cut bytes (segments bytes) r.unfinished
  grown : (empty capacity).Grown r ((segments bytes).map lineText)

variable {capacity : Nat} {bytes : List UInt8} {r : LogRing}

/-- An empty ring follows no bytes at all. -/
theorem follows_empty (capacity : Nat) : Follows capacity [] (empty capacity) :=
  ⟨Cut.nil, Grown.refl _⟩

/-- **A piece of bytes** goes on where the last one ended. -/
theorem Follows.append (h : Follows capacity bytes r) (more : List UInt8) :
    Follows capacity (bytes ++ more) (r.append more).1 := by
  have hring : (r.append more).1 = { (completeLines more).1.foldl complete r with
      unfinished := ((completeLines more).1.foldl complete r).unfinished ++ (completeLines more).2 } := rfl
  obtain ⟨hnone, hcut⟩ | ⟨first, others, hsome, hcut⟩ := h.cut.append (cut_completeLines more)
  · -- no line is complete yet, so only what waits has changed
    rw [hring, hnone]
    refine ⟨?_, ?_⟩
    · rw [hcut.segments_eq]
      exact hcut
    · rw [hcut.segments_eq]
      exact ⟨h.grown.capacity, h.grown.aged, h.grown.count⟩
  · -- the first segment completes what was waiting, and the others are lines of their own
    have hfirst := h.grown.complete first
    obtain ⟨hgrown, hnothing⟩ := hfirst.foldl (r.unfinished_complete first) others
    rw [List.append_assoc, List.singleton_append, ← List.map_cons, ← List.map_append] at hgrown
    rw [hring, hsome]
    refine ⟨?_, ?_⟩
    · rw [hcut.segments_eq]
      show Cut _ _ ((others.foldl complete (r.complete first)).unfinished ++ _)
      rw [hnothing]
      exact hcut
    · rw [hcut.segments_eq]
      exact ⟨hgrown.capacity, hgrown.aged, hgrown.count⟩

/-- A ring follows the bytes through each use of it. -/
theorem Follows.after (h : Follows capacity bytes r) (use : Use) :
    Follows capacity (bytes ++ written [use]) (r.after use) := by
  cases use with
  | write more =>
    have happend := h.append more
    have hwritten : written [.write more] = more := List.append_nil more
    rw [hwritten]
    show Follows _ _ (if (r.append more).2 then (r.append more).1.announce else (r.append more).1)
    split
    · exact ⟨happend.cut, happend.grown.capacity, happend.grown.aged, happend.grown.count⟩
    · exact happend
  | take =>
    have hwritten : bytes ++ written [.take] = bytes := List.append_nil bytes
    rw [hwritten]
    exact ⟨h.cut, h.grown.capacity, h.grown.aged, h.grown.count⟩

/-- **However a ring is used**, it follows the bytes. -/
theorem Follows.foldl (h : Follows capacity bytes r) (uses : List Use) :
    Follows capacity (bytes ++ written uses) (uses.foldl LogRing.after r) := by
  induction uses generalizing bytes r with
  | nil =>
    have hwritten : bytes ++ written [] = bytes := List.append_nil bytes
    rw [hwritten]
    exact h
  | cons use uses ih =>
    have hwritten : written (use :: uses) = written [use] ++ written uses := by
      unfold written
      rw [List.flatMap_cons, List.flatMap_singleton]
    rw [hwritten, ← List.append_assoc]
    exact ih (h.after use)

/-- A ring has room for one line at least. -/
theorem capacity_empty (capacity : Nat) : (empty capacity).capacity = max capacity 1 :=
  List.length_replicate

/-- There are as many lines as line feeds, up to the capacity. -/
theorem Follows.count_eq (h : Follows capacity bytes r) :
    r.count = min (max capacity 1) (bytes.count 10) := by
  have hcount := h.grown.count
  rw [capacity_empty, List.length_map, h.cut.length_eq] at hcount
  have hnone : (empty capacity).count = 0 := rfl
  omega

/-- The newest lines of a ring are the last ones of all that it was given. -/
theorem Follows.tail_eq (h : Follows capacity bytes r) (n : Nat) :
    r.tail n = (lastOf (min n r.count) (segments bytes)).map lineText := by
  have hcount := h.count_eq
  have hlength : ((segments bytes).map lineText).length = bytes.count 10 := by
    rw [List.length_map, h.cut.length_eq]
  have hcapacity : min (min n r.count) (empty capacity).capacity = min n r.count := by
    rw [capacity_empty]
    omega
  rw [LogRing.tail_eq, h.grown.aged, lastOf_lastOf, hcapacity, lastOf_append_of_le (by omega), lastOf,
    lastOf, List.length_map, List.map_drop]

/-! ## The flag -/

/-- A piece completes a line if it has a line feed. -/
theorem write_completes (r : LogRing) (bytes : List UInt8) : (r.append bytes).2 = true ↔ 10 ∈ bytes := by
  have hcut := (cut_completeLines bytes).eq_nil_iff
  show (!(completeLines bytes).1.isEmpty) = true ↔ _
  rw [Bool.not_eq_true', ← Bool.not_eq_true, List.isEmpty_iff, hcut, not_not]

/-- A piece that completes a line sets the flag, and a flag that is set stays so. -/
theorem changed_write (r : LogRing) (bytes : List UInt8) :
    (r.write bytes).changed = true ↔ 10 ∈ bytes ∨ r.changed = true := by
  show (if (r.append bytes).2 then (r.append bytes).1.announce else (r.append bytes).1).changed = true ↔ _
  split
  · rename_i hcompleted
    exact iff_of_true rfl (Or.inl ((r.write_completes bytes).1 hcompleted))
  · rename_i hnone
    rw [r.write_completes bytes] at hnone
    rw [r.changed_append bytes, or_iff_right hnone]

/-- Signals that are taken one after the other add up. -/
theorem taken_append (r : LogRing) (uses uses' : List Use) :
    taken r (uses ++ uses') = taken r uses + taken (uses.foldl LogRing.after r) uses' := by
  induction uses generalizing r with
  | nil => exact (Nat.zero_add _).symm
  | cons use uses ih =>
    cases use with
    | write bytes => exact ih _
    | take =>
      show _ + taken _ (uses ++ uses') = _ + taken _ uses + _
      rw [ih, Nat.add_assoc]
      rfl

/-- A signal stays until it is taken. -/
theorem changed_of_untaken {uses : List Use} (hchanged : r.changed = true) (hnone : taken r uses = 0) :
    (uses.foldl LogRing.after r).changed = true := by
  induction uses generalizing r with
  | nil => exact hchanged
  | cons use uses ih =>
    cases use with
    | write bytes => exact ih ((r.changed_write bytes).2 (Or.inr hchanged)) hnone
    | take =>
      have htaken : (if r.changed then 1 else 0) + taken r.takeChange.2 uses = 0 := hnone
      rw [if_pos hchanged] at htaken
      omega

/-- **A signal is pending** if a line was completed since the last one was taken. -/
theorem changed_iff (capacity : Nat) (uses : List Use) :
    (uses.foldl LogRing.after (empty capacity)).changed = true ↔
      ∃ before bytes later, uses = before ++ .write bytes :: later ∧ 10 ∈ bytes ∧
        taken ((before ++ [.write bytes]).foldl LogRing.after (empty capacity)) later = 0 := by
  refine ⟨?_, ?_⟩
  · induction uses using List.reverseRecOn with
    | nil => exact fun h => nomatch h
    | append_singleton uses use ih =>
      rw [List.foldl_append]
      intro hchanged
      cases use with
      | take => exact nomatch hchanged
      | write bytes =>
        obtain hfeed | hbefore := (changed_write _ bytes).1 hchanged
        · -- the last use has set the flag
          exact ⟨uses, bytes, [], rfl, hfeed, rfl⟩
        · obtain ⟨before, line, later, rfl, hfeed, hnone⟩ := ih hbefore
          refine ⟨before, line, later ++ [.write bytes], ?_, hfeed, ?_⟩
          · rw [List.append_assoc, List.cons_append]
          · rw [taken_append, hnone]
            rfl
  · rintro ⟨before, bytes, later, rfl, hfeed, hnone⟩
    have hsplit : before ++ .write bytes :: later = (before ++ [.write bytes]) ++ later := by
      rw [List.append_assoc, List.singleton_append]
    rw [hsplit, List.foldl_append]
    refine changed_of_untaken ?_ hnone
    rw [List.foldl_append]
    exact (changed_write _ bytes).2 (Or.inl hfeed)

/-! ## Refinement -/

/-- **A ring refines the list of lines that were written to it.**  Whatever pieces the bytes come in, and
    whenever the flag is taken in between: how many lines there are, the newest `n` of them and what is
    copied into places depend on the bytes as a whole, and the flag is set if a line was completed since a
    signal was last taken. -/
theorem refines_lines_written (capacity : Nat) (uses : List Use) :
    let r := uses.foldl LogRing.after (empty capacity)
    let bytes := written uses
    r.capacity = max capacity 1 ∧
    r.count = min (max capacity 1) (bytes.count 10) ∧
    (∀ n, r.tail n = (lastOf (min n r.count) (segments bytes)).map lineText) ∧
    (∀ segment text, Shows segment text ↔ text = lineText segment) ∧
    (∀ n dst, r.tailInto dst n = ((r.tail (min n dst.length)).length,
      r.tail (min n dst.length) ++ dst.drop (r.tail (min n dst.length)).length)) ∧
    (r.changed = true ↔ ∃ before piece later, uses = before ++ .write piece :: later ∧ 10 ∈ piece ∧
      taken ((before ++ [.write piece]).foldl LogRing.after (empty capacity)) later = 0) := by
  have hfollows := (follows_empty capacity).foldl uses
  refine ⟨?_, hfollows.count_eq, hfollows.tail_eq, fun _ _ => shows_iff, ?_, changed_iff capacity uses⟩
  · exact hfollows.grown.capacity.trans (capacity_empty capacity)
  · exact fun n dst => tailInto_eq _ dst n

/-- Pieces that end inside a character, and between the carriage return and the line feed. -/
example : ([Use.write [0xE2, 0x82], .write [0xAC, 13], .write [10, 65]].foldl after (empty 2)).tail 2 =
    [['€']] := by decide

end LogRing
end TunnelBoard
