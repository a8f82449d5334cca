import TunnelBoard.Proofs.Text.Setting
/-
  Wrapped text.

  Each line of a text is set in rows of its own, so a wrapped text is its lines, set one after another
  (`wrap_sets_words`).  A row of it holds words that fit, with single spaces between them (`IsRow`).
  Such a row, read as a line, has those words and no others, and they are set as they stand; and it
  holds neither of the characters that end a line.  So rows that are put together to a text again come
  apart as they were.

  How one line is set is a matter of its words and was settled before (`IsSet`): there is one way to
  set them, and the function finds it.  What is done here is to go from words to lines and texts, and
  back.  A word that had to be cut leaves pieces in rows of their own, and each piece is a word again,
  which is why wrapped text is stable even where it was cut.
-/

namespace TunnelBoard

/-! ## Words in a line -/

/-- A word: no blanks, and not nothing. -/
def IsWord (word : Text) : Prop := word ≠ [] ∧ ∀ c ∈ word, isBlank c = false

/-- What is taken for a word is one. -/
theorem isWord_of_mem_words {line word : Text} (h : word ∈ words line) : IsWord word := by
  induction line using words.induct with
  | case1 =>
    rw [words] at h
    exact absurd h List.not_mem_nil
  | case2 c s hblank ih =>
    rw [words, if_pos hblank] at h
    exact ih h
  | case3 c s hblank ih =>
    rw [words, if_neg hblank] at h
    rcases List.mem_cons.1 h with rfl | h
    · refine ⟨List.cons_ne_nil _ _, fun d hd => ?_⟩
      rcases List.mem_cons.1 hd with rfl | hd
      · exact Bool.eq_false_iff.2 hblank
      · simpa using List.all_eq_true.1 List.all_takeWhile d hd
    · exact ih h

/-- A word ends where the text does, or at the next blank. -/
theorem words_append {word rest : Text} (hword : IsWord word) (hrest : ∀ c ∈ rest.head?, isBlank c = true) :
    words (word ++ rest) = word :: words rest := by
  obtain ⟨hne, hblank⟩ := hword
  cases word with
  | nil => exact absurd rfl hne
  | cons c word =>
    have hc : ¬ isBlank c = true := by
      rw [hblank c List.mem_cons_self]
      exact Bool.false_ne_true
    have hall : ∀ d ∈ word, (!isBlank d) = true := fun d hd => by
      rw [hblank d (List.mem_cons_of_mem _ hd)]
      rfl
    -- the rest begins with a blank, or there is none
    have htake : rest.takeWhile (!isBlank ·) = [] := by
      cases rest with
      | nil => rfl
      | cons d rest => rw [List.takeWhile_cons, hrest d rfl]; rfl
    have hdrop : rest.dropWhile (!isBlank ·) = rest := by
      cases rest with
      | nil => rfl
      | cons d rest => rw [List.dropWhile_cons, hrest d rfl]; rfl
    rw [List.cons_append, words, if_neg hc, List.takeWhile_append_of_pos hall,
      List.dropWhile_append_of_pos hall, htake, hdrop, List.append_nil]

/-- Joined words are read back. -/
theorem words_joinWith {ws : List Text} (h : ∀ w ∈ ws, IsWord w) : words (joinWith [' '] ws) = ws := by
  induction ws with
  | nil => rw [joinWith, words]
  | cons w ws ih =>
    have hw := h w List.mem_cons_self
    have hrest := ih fun v hv => h v (List.mem_cons_of_mem _ hv)
    cases ws with
    | nil =>
      have hone : words (w ++ []) = w :: words [] := words_append hw (by simp)
      rwa [List.append_nil, words] at hone
    -- a word ends at the space behind it
    | cons v ws =>
      rw [joinWith_cons (List.cons_ne_nil _ _), List.append_assoc, words_append hw (by simp [isBlank])]
      rw [List.singleton_append, words, if_pos (by decide), hrest]

/-! ## A line in rows -/

section

variable {width : Nat} {line : Text}

/-- A line is set in some rows, and these are what wrapping makes of it. -/
theorem exists_isLineSet (hwidth : 0 < width) (line : Text) :
    ∃ rows, IsLineSet width line rows ∧ wrapLine width line = rows.map WordRow.text := by
  have hws : [] ∉ words line := fun he => (isWord_of_mem_words he).1 rfl
  unfold IsLineSet wrapLine
  cases hwords : words line with
  | nil => exact ⟨[.words []], rfl, rfl⟩
  | cons w ws =>
    rw [hwords] at hws
    obtain ⟨rows, hset, heq⟩ := exists_isSet hwidth (w :: ws) hws
    exact ⟨rows, hset, heq⟩

namespace IsLineSet

variable {rows : List WordRow}

/-- No other rows are those of the line. -/
theorem text_eq (hwidth : 0 < width) (h : IsLineSet width line rows) :
    wrapLine width line = rows.map WordRow.text := by
  unfold IsLineSet at h
  unfold wrapLine
  cases hwords : words line with
  | nil =>
    rw [if_pos hwords] at h
    subst h
    rfl
  | cons w ws =>
    rw [if_neg (by rw [hwords]; exact List.cons_ne_nil _ _), hwords] at h
    exact h.text_eq hwidth

/-- Every line takes a row at least. -/
theorem ne_nil (h : IsLineSet width line rows) : rows ≠ [] := by
  unfold IsLineSet at h
  cases hwords : words line with
  | nil =>
    rw [if_pos hwords] at h
    subst h
    exact List.cons_ne_nil _ _
  | cons w ws =>
    rw [if_neg (by rw [hwords]; exact List.cons_ne_nil _ _), hwords] at h
    obtain ⟨row, rest, rfl, -⟩ := h.first_cases
    exact List.cons_ne_nil _ _

end IsLineSet

/-! ## Rows -/

/-- A row as it comes out of wrapping: words that fit, with single spaces between them. -/
def IsRow (width : Nat) (row : Text) : Prop :=
  row.length ≤ width ∧ ∃ ws, (∀ w ∈ ws, IsWord w) ∧ row = joinWith [' '] ws

/-- Words that are set make rows. -/
theorem IsSet.isRow {ws : List Text} {rows : List WordRow} (h : IsSet width ws rows)
    (hws : ∀ w ∈ ws, IsWord w) : ∀ row ∈ rows, IsRow width row.text := by
  induction rows generalizing ws with
  | nil => exact nofun
  | cons row rest ih =>
    have hfits := h.fits row List.mem_cons_self
    cases row with
    | words vs =>
      obtain ⟨behind, rfl, hset, -⟩ := h.of_words_cons
      intro r hr
      rcases List.mem_cons.1 hr with rfl | hr
      · exact ⟨hfits.2, vs, fun w hw => hws w (List.mem_append_left _ hw), rfl⟩
      · exact ih hset (fun w hw => hws w (List.mem_append_right _ hw)) r hr
    | cut piece =>
      have hpiece : (∀ c ∈ piece, isBlank c = false) → IsRow width piece := fun hblank =>
        ⟨hfits.2, [piece], fun w hw => List.mem_singleton.1 hw ▸ ⟨hfits.1, hblank⟩, rfl⟩
      intro r hr
      rcases h.of_cut_cons with ⟨rfl, rfl⟩ | ⟨left, others, rfl, -, hset⟩
      · cases List.mem_singleton.1 hr
        exact hpiece (hws piece List.mem_cons_self).2
      · -- what is left of the word is a word again
        have hword := (hws _ List.mem_cons_self).2
        rcases List.mem_cons.1 hr with rfl | hr
        · exact hpiece fun c hc => hword c (List.mem_append_left _ hc)
        · refine ih hset (fun w hw => ?_) r hr
          rcases List.mem_cons.1 hw with rfl | hw
          · exact ⟨hset.ne_nil_of_mem List.mem_cons_self,
              fun c hc => hword c (List.mem_append_right _ hc)⟩
          · exact hws w (List.mem_cons_of_mem _ hw)

/-- So the rows of a line are rows. -/
theorem isRow_of_mem_wrapLine (hwidth : 0 < width) {row : Text} (h : row ∈ wrapLine width line) :
    IsRow width row := by
  obtain ⟨rows, hset, heq⟩ := exists_isLineSet hwidth line
  rw [heq] at h
  obtain ⟨r, hr, rfl⟩ := List.mem_map.1 h
  unfold IsLineSet at hset
  split at hset
  · subst hset
    cases List.mem_singleton.1 hr
    exact ⟨Nat.zero_le _, [], nofun, rfl⟩
  · exact hset.isRow (fun w hw => isWord_of_mem_words hw) r hr

namespace IsRow

variable {row : Text}

/-- A row is set as it stands. -/
theorem wrapLine_eq (hwidth : 0 < width) (h : IsRow width row) : wrapLine width row = [row] := by
  obtain ⟨hfits, ws, hws, rfl⟩ := h
  unfold wrapLine
  rw [words_joinWith hws]
  cases ws with
  | nil => rfl
  | cons w ws =>
    have hset : IsSet width (w :: ws ++ []) [.words (w :: ws)] :=
      IsSet.nil.words_cons (List.cons_ne_nil _ _) (fun he => (hws [] he).1 rfl) hfits nofun
    rw [List.append_nil] at hset
    exact hset.text_eq hwidth

/-- The only blank in a row is the space. -/
theorem not_mem (h : IsRow width row) {c : Char} (hblank : isBlank c = true) (hspace : c ≠ ' ') :
    c ∉ row := by
  obtain ⟨-, ws, hws, rfl⟩ := h
  intro hc
  rcases mem_joinWith hc with rfl | ⟨w, hw, hcw⟩
  · exact hspace rfl
  · rw [(hws w hw).2 c hcw] at hblank
    exact nomatch hblank

end IsRow

end

/-! ## Lines of a text -/

/-- Lines without the separator come apart where they were put together. -/
theorem cutAt_joinWith {sep : Char} {lines : List Text} (hne : lines ≠ []) (h : ∀ l ∈ lines, sep ∉ l) :
    cutAt sep (joinWith [sep] lines) = lines := by
  induction lines with
  | nil => exact absurd rfl hne
  | cons l lines ih =>
    have hl := h l List.mem_cons_self
    cases lines with
    | nil => exact cutAt_of_not_mem hl
    | cons l' lines =>
      have hmore : l' :: lines ≠ [] := List.cons_ne_nil _ _
      rw [joinWith_cons hmore, List.append_assoc, List.singleton_append, cutAt_append hl,
        ih hmore fun k hk => h k (List.mem_cons_of_mem _ hk)]

/-- Without a carriage return at its end a line stays as it is. -/
theorem dropReturn_of_not_mem {line : Text} (h : '\r' ∉ line) : dropReturn line = line := by
  unfold dropReturn
  split
  · rename_i hlast
    exact absurd (List.mem_of_getLast? hlast) h
  · rfl

/-- Lines that are put together come apart again. -/
theorem textLines_joinWith {lines : List Text} (hne : lines ≠ [])
    (h : ∀ l ∈ lines, '\n' ∉ l ∧ '\r' ∉ l) : textLines (joinWith ['\n'] lines) = lines := by
  unfold textLines
  rw [cutAt_joinWith hne fun l hl => (h l hl).1]
  calc lines.map dropReturn = lines.map id :=
        List.map_congr_left fun l hl => dropReturn_of_not_mem (h l hl).2
    _ = lines := List.map_id lines

/-- Every text has a line. -/
theorem textLines_ne_nil (s : Text) : textLines s ≠ [] := by
  unfold textLines
  rw [Ne, List.map_eq_nil_iff]
  exact cutAt_ne_nil '\n' s

/-! ## Wrapped text

A text is wrapped line by line.  A row of a wrapped line is a line that is wrapped to itself, which
makes wrapping stable. -/

section

variable {s : Text} {width : Nat}

/-- Text without escape characters is wrapped line by line. -/
theorem wrap_of_isPlain (hs : IsPlain s) (hwidth : 0 < width) :
    wrap s width = (textLines s).flatMap (wrapLine width) := by
  have hescape : hasEscape s = false := by
    rw [hasEscape, Bool.eq_false_iff]
    exact fun hc => hs (List.contains_iff_mem.1 hc)
  have hzero : ¬ width = 0 := Nat.ne_of_gt hwidth
  unfold wrap
  rw [hescape, Bool.or_false, if_neg (by simpa using hzero)]

/-- The rows of a wrapped text are rows. -/
theorem isRow_of_mem_wrap (hs : IsPlain s) (hwidth : 0 < width) {row : Text} (h : row ∈ wrap s width) :
    IsRow width row := by
  rw [wrap_of_isPlain hs hwidth] at h
  obtain ⟨line, -, hrow⟩ := List.mem_flatMap.1 h
  exact isRow_of_mem_wrapLine hwidth hrow

/-- There is one of them at least. -/
theorem wrap_ne_nil (hs : IsPlain s) (hwidth : 0 < width) : wrap s width ≠ [] := by
  rw [wrap_of_isPlain hs hwidth]
  cases hlines : textLines s with
  | nil => exact absurd hlines (textLines_ne_nil s)
  | cons line lines =>
    obtain ⟨rows, hset, heq⟩ := exists_isLineSet hwidth line
    rw [List.flatMap_cons, heq]
    simp [hset.ne_nil]

/-- Wrapping wrapped text again changes nothing. -/
theorem wrap_wrap (hs : IsPlain s) (hwidth : 0 < width) :
    wrap (joinWith ['\n'] (wrap s width)) width = wrap s width := by
  have hrows : ∀ row ∈ wrap s width, IsRow width row := fun row hrow => isRow_of_mem_wrap hs hwidth hrow
  have hplain : IsPlain (joinWith ['\n'] (wrap s width)) :=
    .joinWith (by decide) fun row hrow => isPlain_of_mem_wrap hs hrow
  -- read as a text, the rows are its lines
  have hlines : textLines (joinWith ['\n'] (wrap s width)) = wrap s width :=
    textLines_joinWith (wrap_ne_nil hs hwidth) fun row hrow =>
      ⟨(hrows row hrow).not_mem (by decide) (by decide), (hrows row hrow).not_mem (by decide) (by decide)⟩
  rw [wrap_of_isPlain hplain hwidth, hlines]
  generalize wrap s width = rows at hrows
  induction rows with
  | nil => rfl
  | cons row rows ih =>
    rw [List.flatMap_cons, (hrows row List.mem_cons_self).wrapLine_eq hwidth,
      ih fun r hr => hrows r (List.mem_cons_of_mem _ hr)]
    rfl

/-- Lines set in rows, one after another, and the rows that wrapping makes of them. -/
theorem flatMap_wrapLine_iff (hwidth : 0 < width) (lines out : List Text) :
    out = lines.flatMap (wrapLine width) ↔
      ∃ groups, List.Forall₂ (IsLineSet width) lines groups ∧ out = groups.flatten.map WordRow.text := by
  constructor
  · rintro rfl
    induction lines with
    | nil => exact ⟨[], .nil, rfl⟩
    | cons line lines ih =>
      obtain ⟨rows, hset, heq⟩ := exists_isLineSet hwidth line
      obtain ⟨groups, hgroups, hrest⟩ := ih
      refine ⟨rows :: groups, .cons hset hgroups, ?_⟩
      rw [List.flatMap_cons, heq, hrest, List.flatten_cons, List.map_append]
  · rintro ⟨groups, hgroups, rfl⟩
    induction hgroups with
    | nil => rfl
    | cons hset hrest ih =>
      rw [List.flatMap_cons, List.flatten_cons, List.map_append, ih, hset.text_eq hwidth]

/-- **Word wrap loses nothing, leaves no room, and is stable**.  For text without escape characters, the
    rows are the lines of the text, each set in rows of its own: an empty row for a line without words,
    and otherwise its words in order, none cut unless it must be, and no row ended before it was full.
    There is no other way to do so.  All rows fit, and wrapping them again changes nothing. -/
theorem wrap_sets_words (hs : IsPlain s) (hwidth : 0 < width) :
    (∀ row ∈ wrap s width, row.length ≤ width) ∧
      (∀ out, out = wrap s width ↔
        ∃ groups, List.Forall₂ (IsLineSet width) (textLines s) groups ∧
          out = groups.flatten.map WordRow.text) ∧
      wrap (joinWith ['\n'] (wrap s width)) width = wrap s width := by
  refine ⟨fun row hrow => (isRow_of_mem_wrap hs hwidth hrow).1, fun out => ?_, wrap_wrap hs hwidth⟩
  rw [wrap_of_isPlain hs hwidth]
  exact flatMap_wrapLine_iff hwidth (textLines s) out

end

/-- A word of two full rows, behind one that leaves room in its row and in front of one that finds none; a
    line without words; and a blank in front of a word. -/
theorem wrap_sets_words_cut :
    wrap "ab abcdefgh ij\r\n\n k".toList 4 =
        ["ab".toList, "abcd".toList, "efgh".toList, "ij".toList, [], "k".toList] ∧
      (∃ groups, List.Forall₂ (IsLineSet 4) ["ab abcdefgh ij".toList, [], " k".toList] groups ∧
        wrap "ab abcdefgh ij\r\n\n k".toList 4 = groups.flatten.map WordRow.text) ∧
      wrap "ab\nabcd\nefgh\nij\n\nk".toList 4 =
        ["ab".toList, "abcd".toList, "efgh".toList, "ij".toList, [], "k".toList] := by
  have hrows : wrap "ab abcdefgh ij\r\n\n k".toList 4 =
      ["ab".toList, "abcd".toList, "efgh".toList, "ij".toList, [], "k".toList] := by decide +kernel
  obtain ⟨-, hset, hstable⟩ :=
    @wrap_sets_words "ab abcdefgh ij\r\n\n k".toList 4 (by decide) (by decide)
  refine ⟨hrows, (hset _).1 rfl, ?_⟩
  rw [hrows] at hstable
  exact hstable

end TunnelBoard
