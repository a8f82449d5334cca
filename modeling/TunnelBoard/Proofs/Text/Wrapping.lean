import TunnelBoard.Proofs.Text.Plain
/-
  Wrapped text holds no characters but those of the text, and spaces.

  To wrap is to cut a text into lines, lines into words, and words that are too long into pieces, and
  to set the words into rows with spaces between them.  None of the cuts brings in a character that
  was not there, so each is a statement about subsets.  Text without escape characters is therefore
  wrapped into rows without them, which is what a screen without colour asks for.
-/

namespace TunnelBoard

/-- A text is cut into parts of its own. -/
theorem subset_of_mem_cutAt {sep : Char} {s piece : Text} (h : piece ∈ cutAt sep s) : piece ⊆ s := by
  induction s generalizing piece with
  | nil =>
    cases List.mem_singleton.1 h
    exact List.Subset.refl _
  | cons c s ih =>
    unfold cutAt at h
    -- at the separator an empty piece begins; any other character belongs to the piece behind it
    split at h
    · rcases List.mem_cons.1 h with rfl | h
      · exact List.nil_subset _
      · exact List.subset_cons_of_subset c (ih h)
    · split at h
      · cases List.mem_singleton.1 h
        exact List.cons_subset_cons c (List.nil_subset s)
      · rename_i first rest hcut
        rcases List.mem_cons.1 h with rfl | h
        · exact List.cons_subset_cons c (ih (hcut ▸ List.mem_cons_self))
        · exact List.subset_cons_of_subset c (ih (hcut ▸ List.mem_cons_of_mem _ h))

/-- A line may lose its carriage return, and nothing comes to it. -/
theorem dropReturn_subset (line : Text) : dropReturn line ⊆ line := by
  unfold dropReturn
  split
  · exact (List.dropLast_sublist line).subset
  · exact List.Subset.refl line

/-- The lines of a text hold nothing else than the text. -/
theorem subset_of_mem_textLines {s line : Text} (h : line ∈ textLines s) : line ⊆ s := by
  obtain ⟨piece, hpiece, rfl⟩ := List.mem_map.1 h
  exact List.Subset.trans (dropReturn_subset piece) (subset_of_mem_cutAt hpiece)

/-- The words of a text hold nothing else than the text. -/
theorem subset_of_mem_words {s word : Text} (h : word ∈ words s) : word ⊆ s := by
  induction s using words.induct with
  | case1 =>
    rw [words] at h
    exact absurd h List.not_mem_nil
  | case2 c s hblank ih =>
    rw [words, if_pos hblank] at h
    exact List.subset_cons_of_subset c (ih h)
  | case3 c s hblank ih =>
    rw [words, if_neg hblank] at h
    rcases List.mem_cons.1 h with rfl | h
    · exact List.cons_subset_cons c (List.takeWhile_sublist _).subset
    · exact List.subset_cons_of_subset c (List.Subset.trans (ih h) (List.dropWhile_sublist _).subset)

/-- The pieces of a word hold nothing else than the word. -/
theorem subset_of_mem_pieces {width : Nat} {word piece : Text} (h : piece ∈ pieces width word) :
    piece ⊆ word := by
  induction word using pieces.induct width with
  | case1 word hshort =>
    rw [pieces, dif_pos hshort] at h
    cases List.mem_singleton.1 h
    exact List.Subset.refl _
  | case2 word hlong ih =>
    rw [pieces, dif_neg hlong] at h
    rcases List.mem_cons.1 h with rfl | h
    · exact List.take_subset _ _
    · exact List.Subset.trans (ih h) (List.drop_subset _ _)

/-- Words without escape characters are set into rows without escape characters. -/
theorem isPlain_of_mem_setWords {width : Nat} {row : Text} {ws : List Text} (hrow : IsPlain row)
    (hws : ∀ w ∈ ws, IsPlain w) : ∀ line ∈ setWords width row ws, IsPlain line := by
  have hstart : ∀ row : Text, IsPlain row → ∀ line ∈ (if row.isEmpty then [] else [row]),
      IsPlain line := by
    intro row hrow line hline
    split at hline
    · exact absurd hline List.not_mem_nil
    · cases List.mem_singleton.1 hline
      exact hrow
  -- the induction is on the words that are left, with the row that is being filled
  induction ws generalizing row with
  | nil => exact hstart row hrow
  | cons word rest ih =>
    have hword : IsPlain word := hws word List.mem_cons_self
    have hrest : ∀ w ∈ rest, IsPlain w := fun w hw => hws w (List.mem_cons_of_mem _ hw)
    intro line hline
    unfold setWords at hline
    dsimp only at hline
    split at hline
    · -- the word is cut into rows, and what is left of it begins the next one
      have hpiece : ∀ piece ∈ pieces width word, IsPlain piece := fun piece hp =>
        hword.of_subset (subset_of_mem_pieces hp)
      rcases List.mem_append.1 hline with hline | hline
      · rcases List.mem_append.1 hline with hline | hline
        · exact hstart row hrow line hline
        · exact hpiece line (List.dropLast_subset _ hline)
      · refine ih ?_ hrest line hline
        cases hlast : (pieces width word).getLast? with
        | none => exact .nil
        | some piece => exact hpiece piece (List.mem_of_getLast? hlast)
    · -- the word comes into the empty row, behind the last word, or into a row of its own
      split at hline
      · exact ih hword hrest line hline
      · split at hline
        · exact ih (hrow.append (.cons (by decide) hword)) hrest line hline
        · rcases List.mem_cons.1 hline with rfl | hline
          · exact hrow
          · exact ih hword hrest line hline

/-- Text without escape characters is wrapped into lines without them. -/
theorem isPlain_of_mem_wrap {s line : Text} (hs : IsPlain s) {width : Nat} (h : line ∈ wrap s width) :
    IsPlain line := by
  have hlines : ∀ l ∈ textLines s, IsPlain l := fun l hl => hs.of_subset (subset_of_mem_textLines hl)
  unfold wrap at h
  split at h
  · exact hlines line h
  · obtain ⟨l, hl, hline⟩ := List.mem_flatMap.1 h
    unfold wrapLine at hline
    split at hline
    · cases List.mem_singleton.1 hline
      exact .nil
    · refine isPlain_of_mem_setWords .nil (fun w hw => ?_) line hline
      exact (hlines l hl).of_subset (subset_of_mem_words hw)

/-- Styled text is only cut into its lines. -/
theorem wrap_of_hasEscape {s : Text} (h : hasEscape s = true) (width : Nat) : wrap s width = textLines s := by
  unfold wrap
  rw [h, Bool.or_true, if_pos rfl]

end TunnelBoard
