import TunnelBoard.Proofs.Text.Plain
/-
  How wide a fitted row is.

  A row that is clipped is as wide as it may be, and keeps every escape character, so the reader is
  behind it where it is behind the whole row (`after_clip`, `visibleWidth_clip`).  A row that is
  filled up with spaces has the wanted width if the reader is between sequences at its end; in the
  middle of one, it swallows at least the first of the spaces (`visibleWidth_padRight_eq_iff`).

  Clipping is a walk over the row with the reader at hand, and so is the proof about it
  (`read_clipFrom`): either a character is shown, and then it is kept or the mark takes the place of
  the rest, or it is not, and then it is kept anyway.
-/

namespace TunnelBoard

variable {s : Text}

/-! ## Cutting

To clip a row keeps all its sequences, so the reader comes to the same place as behind the whole row.
To truncate one that is too wide keeps none of them. -/

/-- The columns that are kept and the mark make up the whole width. -/
theorem length_cut (width : Nat) : keptColumns width + (cutMark width).length = width := by
  unfold keptColumns cutMark
  split
  · rfl
  · rename_i hwide
    show width - 3 + 3 = width
    omega

/-- The mark is plain. -/
theorem isPlain_cutMark (width : Nat) : IsPlain (cutMark width) := by
  unfold cutMark
  split
  · exact .nil
  · exact show IsPlain ellipsis by decide

/-- A cut row brings the reader where the whole row does, and shows the first `keep` characters of the
    row and the mark. -/
theorem read_clipFrom {mark : Text} (hmark : IsPlain mark) (q : Scan) (keep : Nat) (s : Text) :
    q.after (clipFrom mark q keep s) = q.after s ∧
      (keep < (q.shown s).length →
        q.shown (clipFrom mark q keep s) = (q.shown s).take keep ++ mark) := by
  induction s generalizing q keep with
  | nil =>
    rw [clipFrom]
    exact ⟨rfl, fun h => by simp at h⟩
  | cons c s ih =>
    unfold clipFrom
    -- a character that is shown counts, any other one passes
    by_cases hshows : q.shows c = true
    · have hnext := Scan.next_of_shows hshows
      simp only [hshows, if_true, hnext]
      cases keep with
      | zero =>
        -- here the mark stands, and of the rest only what is not shown
        have hplain : q = .plain := by
          cases q with
          | plain => rfl
          | escape | control | command | commandEscape => exact nomatch hshows
        obtain ⟨hafter, hshown⟩ := Scan.read_of_isPlain hmark
        obtain ⟨hrest, hnone⟩ := Scan.read_hidden .plain s
        subst hplain
        constructor
        · dsimp only
          rw [Scan.after_append, hafter, hrest, Scan.after_cons, hnext]
        · intro _
          dsimp only
          rw [Scan.shown_append, hshown, hafter, hnone, List.append_nil, List.take_zero,
            List.nil_append]
      | succ keep =>
        obtain ⟨hafter, hshown⟩ := ih q keep
        constructor
        · dsimp only
          rw [Scan.after_cons, Scan.after_cons, hnext, hafter]
        · intro hlong
          rw [Scan.shown, if_pos hshows, hnext, List.length_cons] at hlong
          dsimp only
          rw [Scan.shown, if_pos hshows, Scan.shown, if_pos hshows, hnext, hshown (by omega),
            List.take_succ_cons, List.cons_append]
    · obtain ⟨hafter, hshown⟩ := ih (q.next c) keep
      rw [if_neg hshows]
      constructor
      · rw [Scan.after_cons, Scan.after_cons, hafter]
      · intro hlong
        rw [Scan.shown, if_neg hshows] at hlong
        rw [Scan.shown, if_neg hshows, Scan.shown, if_neg hshows, hshown hlong]

/-- A clipped row brings the reader where the whole row does. -/
theorem after_clip (s : Text) (width : Nat) :
    Scan.plain.after (clip s width) = Scan.plain.after s := by
  unfold clip
  split
  · rfl
  · exact (read_clipFrom (isPlain_cutMark width) .plain _ s).1

/-- A clipped row is as wide as it may be. -/
theorem visibleWidth_clip (s : Text) (width : Nat) :
    visibleWidth (clip s width) = min (visibleWidth s) width := by
  unfold clip
  split
  · rename_i hfits
    exact (Nat.min_eq_left hfits).symm
  · rename_i hwide
    have hcut := length_cut width
    have hkept : keptColumns width < visibleWidth s := by omega
    have hshown := (read_clipFrom (isPlain_cutMark width) .plain _ s).2 hkept
    have hlong : min (keptColumns width) (visibleWidth s) = keptColumns width := by omega
    rw [visibleWidth, strip, hshown, List.length_append, List.length_take]
    show min (keptColumns width) (visibleWidth s) + _ = _
    rw [hlong, hcut]
    omega

/-- What is cut without its styling is plain. -/
theorem isPlain_truncate (h : IsPlain s) (width : Nat) : IsPlain (truncate s width) := by
  unfold truncate
  split
  · exact h
  · exact IsPlain.append ((isPlain_strip s).of_subset (List.take_subset _ _)) (isPlain_cutMark width)

/-- What is cut without its styling leaves nothing open, if the row did not. -/
theorem complete_truncate (h : Complete s) (width : Nat) : Complete (truncate s width) := by
  unfold truncate
  split
  · exact h
  · exact complete_of_isPlain
      (IsPlain.append ((isPlain_strip s).of_subset (List.take_subset _ _)) (isPlain_cutMark width))

/-- What is cut without its styling is as wide as it may be. -/
theorem visibleWidth_truncate (s : Text) (width : Nat) :
    visibleWidth (truncate s width) = min (visibleWidth s) width := by
  unfold truncate
  split
  · rename_i hfits
    exact (Nat.min_eq_left hfits).symm
  · rename_i hwide
    have hcut := length_cut width
    have hkept : min (keptColumns width) (strip s).length = keptColumns width := by
      have hlength : (strip s).length = visibleWidth s := rfl
      omega
    rw [visibleWidth_of_isPlain (IsPlain.append
      ((isPlain_strip s).of_subset (List.take_subset _ _)) (isPlain_cutMark width)),
      List.length_append, List.length_take, hkept, hcut]
    omega

/-! ## Filling up -/

/-- Spaces behind a plain row keep it plain. -/
theorem isPlain_padRight (h : IsPlain s) (width : Nat) : IsPlain (padRight s width) :=
  h.append (isPlain_spaces _)

/-- A plain row stays plain when it is fitted. -/
theorem isPlain_fit (h : IsPlain s) (width : Nat) : IsPlain (fit s width) :=
  isPlain_padRight (isPlain_truncate h width) width

/-- In the middle of a sequence, not all of some spaces are shown. -/
theorem length_shown_spaces_lt {q : Scan} (hq : q ≠ .plain) {n : Nat} (hn : 0 < n) :
    (q.shown (spaces n)).length < n := by
  have hcounted := q.length_shown_add_length_hidden (spaces n)
  have hlength : (spaces n).length = n := List.length_replicate
  -- the first space belongs to the sequence
  have hhidden : 0 < (q.hidden (spaces n)).length := by
    obtain ⟨m, rfl⟩ := Nat.exists_eq_add_one.2 hn
    have hnot : ¬ q.shows ' ' = true := by
      cases q with
      | plain => exact absurd rfl hq
      | escape | control | command | commandEscape => exact nofun
    show 0 < (q.hidden (' ' :: spaces m)).length
    rw [Scan.hidden, if_neg hnot, List.length_cons]
    exact Nat.succ_pos _
  omega

/-- A row that is filled up has the wanted width exactly if it was not filled up in the middle of a
    sequence. -/
theorem visibleWidth_padRight_eq_iff {width : Nat} (hfits : visibleWidth s ≤ width) :
    visibleWidth (padRight s width) = width ↔ Complete s ∨ visibleWidth s = width := by
  have hwidth : visibleWidth (padRight s width) =
      visibleWidth s + ((Scan.plain.after s).shown (spaces (width - visibleWidth s))).length := by
    unfold padRight
    rw [visibleWidth, strip, Scan.shown_append, List.length_append]
    rfl
  rw [hwidth]
  -- between sequences all spaces show; else one at least does not, so there must be none to fill
  by_cases hcomplete : Complete s
  · have hall : (Scan.plain.after s).shown (spaces (width - visibleWidth s)) =
        spaces (width - visibleWidth s) := by
      rw [show Scan.plain.after s = .plain from hcomplete]
      exact strip_of_isPlain (isPlain_spaces _)
    rw [hall, spaces, List.length_replicate]
    exact ⟨fun _ => Or.inl hcomplete, fun _ => by omega⟩
  · by_cases hfull : visibleWidth s = width
    · rw [hfull, Nat.sub_self]
      exact ⟨fun _ => Or.inr rfl, fun _ => by simp [spaces]⟩
    · have hless := length_shown_spaces_lt (q := Scan.plain.after s) hcomplete
        (n := width - visibleWidth s) (by omega)
      constructor
      · intro heq
        omega
      · rintro (h | h)
        · exact absurd h hcomplete
        · exact absurd h hfull

/-- A row that leaves nothing open does not do so when it is fitted. -/
theorem complete_fit (h : Complete s) (width : Nat) : Complete (fit s width) :=
  (complete_truncate h width).append (complete_of_isPlain (isPlain_spaces _))

/-- A complete row that is cut and filled up has the wanted width. -/
theorem visibleWidth_fit (h : Complete s) (width : Nat) : visibleWidth (fit s width) = width := by
  have hfits : visibleWidth (truncate s width) ≤ width := by
    rw [visibleWidth_truncate]
    exact Nat.min_le_right _ _
  exact (visibleWidth_padRight_eq_iff hfits).2 (Or.inl (complete_truncate h width))

end TunnelBoard
