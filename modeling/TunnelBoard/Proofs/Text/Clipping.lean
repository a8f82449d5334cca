import TunnelBoard.Proofs.Text.Fitting
import TunnelBoard.Proofs.Text.Grammar
/-
  Two ways to cut a row.

  `truncate` gives up the styling of a row that is too wide, `clip` keeps all of it.  What is shown of the
  two is the same text, the plain text of the row cut (`strip_clip`, `strip_truncate`), and what is not
  shown of a clipped row is what was not shown of the row (`hidden_clip`).

  The crux is in `Fitting`: a cut takes away and puts in shown characters only, and those stand where the
  reader is between sequences, so the escape characters behind the cut are read as they were.  This holds
  of a row that breaks off in the middle of a sequence as well.
-/

namespace TunnelBoard

/-! ## What is not shown -/

namespace Scan

variable {s : Text}

/-- Reading `s ++ t` hides what `s` hides, then what `t` hides from where `s` ended. -/
theorem hidden_append (q : Scan) (s t : Text) :
    q.hidden (s ++ t) = q.hidden s ++ (q.after s).hidden t := by
  induction s generalizing q with
  | nil => simp
  | cons c s ih =>
    simp only [List.cons_append, hidden, after_cons, ih]
    split <;> simp

/-- Nothing of a plain text is hidden. -/
theorem hidden_of_isPlain (h : IsPlain s) : plain.hidden s = [] := by
  have hcounted := plain.length_shown_add_length_hidden s
  rw [(read_of_isPlain h).2] at hcounted
  exact List.eq_nil_of_length_eq_zero (by omega)

/-- Text of which nothing is hidden is shown as it is. -/
theorem shown_of_hidden_eq_nil {q : Scan} (h : q.hidden s = []) : q.shown s = s := by
  induction s generalizing q with
  | nil => exact shown_nil q
  | cons c s ih =>
    rw [hidden] at h
    split at h
    · rename_i hshows
      rw [shown, if_pos hshows, ih h]
    · exact absurd h (List.cons_ne_nil _ _)

/-- What is hidden of a text is hidden once it stands alone. -/
theorem hidden_hidden (q : Scan) (s : Text) : q.hidden (q.hidden s) = q.hidden s := by
  induction s generalizing q with
  | nil => simp
  | cons c s ih =>
    by_cases hshows : q.shows c = true
    · rw [hidden, if_pos hshows, next_of_shows hshows]
      exact ih q
    · rw [hidden, if_neg hshows, hidden, if_neg hshows, ih]

end Scan

/-- A cut hides what the whole row hides. -/
theorem hidden_clipFrom {mark : Text} (hmark : IsPlain mark) (q : Scan) (keep : Nat) (s : Text) :
    q.hidden (clipFrom mark q keep s) = q.hidden s := by
  induction s generalizing q keep with
  | nil => rw [clipFrom]
  | cons c s ih =>
    unfold clipFrom
    by_cases hshows : q.shows c = true
    · have hnext := Scan.next_of_shows hshows
      rw [if_pos hshows, Scan.hidden, if_pos hshows, hnext]
      cases keep with
      | zero =>
        -- the reader is between sequences before the mark, and so behind it
        have hplain : q = .plain := by
          cases q with
          | plain => rfl
          | escape | control | command | commandEscape => exact absurd hshows Bool.false_ne_true
        subst hplain
        dsimp only
        rw [Scan.hidden_append, Scan.hidden_of_isPlain hmark, (Scan.read_of_isPlain hmark).1,
          Scan.hidden_hidden, List.nil_append]
      | succ keep =>
        dsimp only
        rw [Scan.hidden, if_pos hshows, hnext, ih]
    · rw [if_neg hshows, Scan.hidden, if_neg hshows, Scan.hidden, if_neg hshows, ih]

/-! ## The same cut

Both ways of cutting count shown characters only, so what they show is the same cut of the same plain
text. -/

variable (s : Text) (width : Nat)

/-- A clipped row keeps all that is not shown of the row, in order. -/
theorem hidden_clip : Scan.plain.hidden (clip s width) = Scan.plain.hidden s := by
  unfold clip
  split
  · rfl
  · exact hidden_clipFrom (isPlain_cutMark width) .plain _ s

theorem visibleWidth_strip : visibleWidth (strip s) = visibleWidth s :=
  visibleWidth_of_isPlain (isPlain_strip s)

theorem truncate_of_le {s : Text} {width : Nat} (h : visibleWidth s ≤ width) : truncate s width = s :=
  if_pos h

theorem clip_of_le {s : Text} {width : Nat} (h : visibleWidth s ≤ width) : clip s width = s := if_pos h

/-- What is shown of a row that is too wide, once it is cut. -/
theorem truncate_strip_of_lt {s : Text} {width : Nat} (h : width < visibleWidth s) :
    truncate (strip s) width = (strip s).take (keptColumns width) ++ cutMark width := by
  have hwide : ¬ visibleWidth (strip s) ≤ width := by
    rw [visibleWidth_strip]
    exact Nat.not_le.2 h
  unfold truncate
  rw [if_neg hwide, strip_of_isPlain (isPlain_strip s)]

/-- What is shown of a truncated row is its plain text truncated. -/
theorem strip_truncate : strip (truncate s width) = truncate (strip s) width := by
  rcases Nat.lt_or_ge width (visibleWidth s) with hwide | hfits
  · have hplain := isPlain_truncate (isPlain_strip s) width
    rw [← strip_of_isPlain hplain, truncate_strip_of_lt hwide, truncate, if_neg (Nat.not_le.2 hwide)]
  · rw [truncate_of_le hfits, truncate_of_le (Nat.le_trans (Nat.le_of_eq (visibleWidth_strip s)) hfits)]

/-- What is shown of a clipped row is its plain text truncated. -/
theorem strip_clip : strip (clip s width) = truncate (strip s) width := by
  rcases Nat.lt_or_ge width (visibleWidth s) with hwide | hfits
  · have hcut := length_cut width
    have hkept : keptColumns width < (Scan.plain.shown s).length := by
      show keptColumns width < visibleWidth s
      omega
    rw [truncate_strip_of_lt hwide, clip, if_neg (Nat.not_le.2 hwide)]
    exact (read_clipFrom (isPlain_cutMark width) .plain _ s).2 hkept
  · rw [clip_of_le hfits, truncate_of_le (Nat.le_trans (Nat.le_of_eq (visibleWidth_strip s)) hfits)]

/-- Without escape characters, it does not matter which way a row is cut. -/
theorem clip_of_isPlain {s : Text} (h : IsPlain s) (width : Nat) : clip s width = truncate s width := by
  have hnothing : Scan.plain.hidden (clip s width) = [] := by
    rw [hidden_clip, Scan.hidden_of_isPlain h]
  calc clip s width = strip (clip s width) := (Scan.shown_of_hidden_eq_nil hnothing).symm
    _ = truncate (strip s) width := strip_clip s width
    _ = truncate s width := by rw [strip_of_isPlain h]

/-- A cut puts in no character of more than one byte. -/
theorem ascii_truncate {s : Text} (hs : IsPlain s) (hascii : ∀ c ∈ s, c.toNat < 128) (width : Nat) :
    ∀ c ∈ truncate s width, c.toNat < 128 := by
  intro c hc
  unfold truncate at hc
  split at hc
  · exact hascii c hc
  · rw [strip_of_isPlain hs] at hc
    rcases List.mem_append.1 hc with hc | hc
    · exact hascii c (List.mem_of_mem_take hc)
    · unfold cutMark at hc
      split at hc
      · exact nomatch hc
      · have hdot : c = '.' := by simpa [ellipsis] using hc
        subst hdot
        decide

/-- **Both ways cut a row at one place, and clipping keeps all styling**.  A cut row is as wide as it may
    be, and a row that fits is not touched.  What is shown is the plain text of the row cut: its first
    characters, and three dots if there is room for them and more.  A clipped row hides what the row
    hides.  Without escape characters the two cuts are one; if each character has one byte besides, as
    many bytes as columns are kept. -/
theorem cut_at_one_place :
    visibleWidth (truncate s width) = min (visibleWidth s) width ∧
      visibleWidth (clip s width) = min (visibleWidth s) width ∧
      (visibleWidth s ≤ width → truncate s width = s ∧ clip s width = s) ∧
      strip (clip s width) = truncate (strip s) width ∧
      strip (truncate s width) = truncate (strip s) width ∧
      (width < visibleWidth s →
        truncate (strip s) width =
          if width ≤ 3 then (strip s).take width else (strip s).take (width - 3) ++ ['.', '.', '.']) ∧
      Scan.plain.hidden (clip s width) = Scan.plain.hidden s ∧
      (hasEscape s = false →
        clip s width = truncate s width ∧
        ((∀ c ∈ s, c.toNat < 128) → utf8Length (truncate s width) = min s.length width)) := by
  refine ⟨visibleWidth_truncate s width, visibleWidth_clip s width, ?_, strip_clip s width,
    strip_truncate s width, ?_, hidden_clip s width, ?_⟩
  · exact fun hfits => ⟨truncate_of_le hfits, clip_of_le hfits⟩
  · intro hwide
    rw [truncate_strip_of_lt hwide, keptColumns, cutMark]
    split
    · exact List.append_nil _
    · rfl
  · intro hescape
    -- a text with no escape character in it is all shown
    have hplain := isPlain_of_hasEscape hescape
    refine ⟨clip_of_isPlain hplain width, fun hascii => ?_⟩
    have hcut := isPlain_truncate hplain width
    rw [utf8Length_of_ascii (ascii_truncate hplain hascii width), ← visibleWidth_of_isPlain hcut,
      visibleWidth_truncate, visibleWidth_of_isPlain hplain]

/-- A row whose last sequence is not complete, cut before its fourth shown character. -/
theorem cut_at_one_place_torn :
    strip (clip "\x1b[31mabc\x1b[1mdefgh\x1b]0".toList 6) = "abc...".toList ∧
      Scan.plain.hidden (clip "\x1b[31mabc\x1b[1mdefgh\x1b]0".toList 6) = "\x1b[31m\x1b[1m\x1b]0".toList ∧
      clip "abc".toList 3 = "abc".toList ∧ utf8Length (truncate "abcd".toList 3) = 3 := by
  obtain ⟨-, -, -, hclip, -, hcut, hhidden, -⟩ :=
    cut_at_one_place "\x1b[31mabc\x1b[1mdefgh\x1b]0".toList 6
  obtain ⟨-, -, hfits, -⟩ := cut_at_one_place "abc".toList 3
  obtain ⟨-, -, -, -, -, -, -, hplain⟩ := cut_at_one_place "abcd".toList 3
  refine ⟨hclip.trans (hcut (by decide)), hhidden, (hfits (by decide)).2, ?_⟩
  exact (hplain (by decide)).2 (by simp)

end TunnelBoard
