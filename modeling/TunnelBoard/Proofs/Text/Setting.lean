import Mathlib.Data.List.Chain
import Mathlib.Data.List.Forall2
import TunnelBoard.Proofs.Text.Wrapping
/-
  How words are set in rows.

  The specification knows nothing of the loop.  A `WordRow` holds words, or as much of one word as a
  row holds; the words that some rows spell are found by putting such pieces together again
  (`spelled`).  Rows set some words (`IsSet`) if they spell them, each word cut only where it must be
  (`IsCut`), if they are no wider than allowed, and if no row ends where the next word would still
  have fitted.

  The crux is that the loop can be read without its state.  Whatever row it is in, it either goes on
  with that row, or it ends it and starts again with the words that are left (`setWords_full`); a word
  that is too long leaves a full row behind it, and then what is left of it is a word like any other
  (`setWords_cut`).  With these two equations, the loop sets the words (`setsFrom`), and there is no
  other way to set them (`IsSet.text_eq`).  Wrapped rows are set as they stand, so wrapping them again
  changes nothing.

  There are two inductions.  That the loop sets the words goes by the characters still to come, for a
  word that is cut leaves a shorter one behind; each branch of the loop has its lemma in `SetsFrom`,
  with the row that is open (`IsOpenRow`).  That there is no other way goes by the rows that are
  given: the first of them says which words it holds, and why the next word is not among them
  (`of_words_cons`, `of_cut_cons`).
-/

namespace TunnelBoard

/-! ## Joined words -/

/-- Words that are joined in two groups are joined with a separator between the groups. -/
theorem joinWith_append {sep : Text} {row more : List Text} (hrow : row ≠ []) (hmore : more ≠ []) :
    joinWith sep (row ++ more) = joinWith sep row ++ sep ++ joinWith sep more := by
  induction row with
  | nil => exact absurd rfl hrow
  | cons w row ih =>
    cases row with
    | nil => exact joinWith_cons hmore
    | cons w' row =>
      have hne : w' :: row ≠ [] := List.cons_ne_nil _ _
      have hall : w' :: row ++ more ≠ [] := List.cons_ne_nil _ _
      rw [List.cons_append, joinWith_cons hall, ih hne, joinWith_cons hne]
      simp only [List.append_assoc]

/-- Joined words are not empty, if there are any and none of them is empty. -/
theorem joinWith_ne_nil {sep : Text} {row : List Text} (h : row ≠ []) (hwords : [] ∉ row) :
    joinWith sep row ≠ [] := by
  cases row with
  | nil => exact absurd rfl h
  | cons w row =>
    have hw : w ≠ [] := fun he => hwords (he ▸ List.mem_cons_self)
    cases row with
    | nil => exact hw
    | cons => simp [joinWith, hw]

/-- Joined words are no shorter than each of them. -/
theorem length_le_joinWith {sep word : Text} {row : List Text} (h : word ∈ row) :
    word.length ≤ (joinWith sep row).length := by
  induction row with
  | nil => exact nomatch h
  | cons w row ih =>
    cases row with
    | nil =>
      cases List.mem_singleton.1 h
      exact Nat.le_refl _
    | cons w' row =>
      rw [joinWith_cons (List.cons_ne_nil _ _), List.length_append, List.length_append]
      rcases List.mem_cons.1 h with rfl | h
      · omega
      · have hlater := ih h
        omega

/-- A character of joined words is one of a word, or the separator. -/
theorem mem_joinWith {c sep : Char} {row : List Text} (h : c ∈ joinWith [sep] row) :
    c = sep ∨ ∃ word ∈ row, c ∈ word := by
  induction row with
  | nil => exact nomatch h
  | cons w row ih =>
    cases row with
    | nil => exact Or.inr ⟨w, List.mem_cons_self, h⟩
    | cons w' row =>
      rw [joinWith_cons (by simp)] at h
      rcases List.mem_append.1 h with h | h
      · rcases List.mem_append.1 h with h | h
        · exact Or.inr ⟨w, List.mem_cons_self, h⟩
        · exact Or.inl (List.mem_singleton.1 h)
      · obtain hsep | ⟨word, hword, hc⟩ := ih h
        · exact Or.inl hsep
        · exact Or.inr ⟨word, List.mem_cons_of_mem _ hword, hc⟩

/-! ## The specification -/

/-- A row of set text. -/
inductive WordRow where
  /-- Words with single spaces between them.  The first may be what is left of a word that was cut. -/
  | words (ws : List Text)
  /-- A piece of a word that goes on in the next row. -/
  | cut (piece : Text)

namespace WordRow

/-- What stands in a row. -/
def text : WordRow → Text
  | words ws => joinWith [' '] ws
  | cut piece => piece

/-- The word, or piece of one, that a row begins with. -/
def first : WordRow → Text
  | words ws => ws.headD []
  | cut piece => piece

/-- What the next row begins with does not fit into a row of words, behind one more space. -/
def EndsBefore (width : Nat) : WordRow → WordRow → Prop
  | words ws, next => width < (joinWith [' '] ws).length + 1 + next.first.length
  | cut _, _ => True

/-- The words that some rows spell, each in its pieces. -/
def spelled : List WordRow → List (List Text)
  | [] => []
  | words ws :: rest => ws.map ([·]) ++ spelled rest
  | cut piece :: rest =>
    match spelled rest with
    | [] => [[piece]]
    | first :: behind => (piece :: first) :: behind

end WordRow

/-- A word in pieces: in one piece if a row holds it; otherwise in full rows, and what is left. -/
structure IsCut (width : Nat) (word : Text) (parts : List Text) : Prop where
  whole : parts.flatten = word
  short : word.length ≤ width → parts = [word]
  full : ∀ part ∈ parts.dropLast, part.length = width
  within : ∀ part ∈ parts, part ≠ [] ∧ part.length ≤ width

/-- Words set in rows. -/
structure IsSet (width : Nat) (ws : List Text) (rows : List WordRow) : Prop where
  /-- Read in order, the rows spell the words. -/
  spells : List.Forall₂ (IsCut width) ws (WordRow.spelled rows)
  fits : ∀ row ∈ rows, row.first ≠ [] ∧ row.text.length ≤ width
  /-- No row ends early. -/
  tight : rows.IsChain (WordRow.EndsBefore width)

/-- A line set in rows: its words, or one empty row if it has none. -/
def IsLineSet (width : Nat) (line : Text) (rows : List WordRow) : Prop :=
  if words line = [] then rows = [.words []] else IsSet width (words line) rows

/-! ## The loop, row by row -/

section

variable {width : Nat} {row word : Text} {rest : List Text}

/-- A word that fits begins an empty row. -/
theorem setWords_start (h : word.length ≤ width) :
    setWords width [] (word :: rest) = setWords width word rest := by
  rw [setWords, if_neg (Nat.not_lt.2 h), if_pos List.isEmpty_nil]

/-- A word that fits is added to the row behind a space. -/
theorem setWords_more (hrow : row ≠ []) (h : row.length + 1 + word.length ≤ width) :
    setWords width row (word :: rest) = setWords width (row ++ ' ' :: word) rest := by
  have hempty : row.isEmpty = false := by simpa using hrow
  rw [setWords, if_neg (by omega), hempty, if_neg Bool.false_ne_true, if_pos h]

/-- A row that the next word does not fit into is ended, and the loop starts again with that word. -/
theorem setWords_full (hrow : row ≠ []) (h : width < row.length + 1 + word.length) :
    setWords width row (word :: rest) = row :: setWords width [] (word :: rest) := by
  have hempty : row.isEmpty = false := by simpa using hrow
  rcases Nat.lt_or_ge width word.length with hlong | hshort
  · rw [setWords, setWords, if_pos hlong, if_pos hlong, hempty]
    rfl
  · rw [setWords_start hshort, setWords, if_neg (Nat.not_lt.2 hshort), hempty,
      if_neg Bool.false_ne_true, if_neg (Nat.not_le.2 h)]

/-- Of a word that is too long, a full row is set, and what is left of it is the next word. -/
theorem setWords_cut {piece left : Text} (hwidth : 0 < width) (hpiece : piece.length = width)
    (hleft : left ≠ []) (rest : List Text) :
    setWords width [] ((piece ++ left) :: rest) = piece :: setWords width [] (left :: rest) := by
  have hpos : 0 < left.length := List.length_pos_iff.2 hleft
  have hlong : width < (piece ++ left).length := by
    rw [List.length_append]
    omega
  -- the pieces of the word are its front and the pieces of what is left
  have hpieces : pieces width (piece ++ left) = piece :: pieces width left := by
    rw [pieces, dif_neg (by omega), ← hpiece, List.take_left, List.drop_left]
  have hne : pieces width left ≠ [] := by
    unfold pieces
    split <;> simp
  have hdrop : (piece :: pieces width left).dropLast = piece :: (pieces width left).dropLast :=
    List.dropLast_cons_of_ne_nil hne
  have hlast : (piece :: pieces width left).getLast? = (pieces width left).getLast? := by
    rw [List.getLast?_cons, List.getLast?_eq_some_getLast hne]
    rfl
  rw [setWords, if_pos hlong]
  dsimp only
  rw [hpieces, hdrop, hlast]
  rcases Nat.lt_or_ge width left.length with hlong' | hshort'
  · rw [setWords, if_pos hlong']
    rfl
  · have hone : pieces width left = [left] := by
      rw [pieces, dif_pos (Or.inr hshort')]
    rw [hone, setWords_start hshort']
    rfl

end

/-! ## Rows and the words they spell

A word is in one piece if a row holds it, and otherwise in full rows and what is left.  What is said
about rows is split here at the first of them, as the inductions below need it. -/

namespace IsCut

variable {width : Nat} {word : Text} {parts : List Text}

/-- A word in pieces is not empty. -/
theorem ne_nil (h : IsCut width word parts) : word ≠ [] := by
  rintro rfl
  have hone := h.short (Nat.zero_le _)
  exact (h.within [] (hone ▸ List.mem_singleton_self _)).1 rfl

/-- A word that a row holds is in one piece. -/
theorem single (hword : word ≠ []) (h : word.length ≤ width) : IsCut width word [word] where
  whole := by simp
  short := fun _ => rfl
  full := nofun
  within := by
    intro part hpart
    rw [List.mem_singleton.1 hpart]
    exact ⟨hword, h⟩

/-- A word in one piece is that piece. -/
theorem eq_of_single {part : Text} (h : IsCut width word [part]) : part = word := by
  have hwhole := h.whole
  rwa [List.flatten_singleton] at hwhole

/-- One more full row in front of a word. -/
theorem cons {piece : Text} (hwidth : 0 < width) (hpiece : piece.length = width)
    (h : IsCut width word parts) : IsCut width (piece ++ word) (piece :: parts) where
  whole := by rw [List.flatten_cons, h.whole]
  short := by
    intro hshort
    have hpos := List.length_pos_iff.2 h.ne_nil
    rw [List.length_append] at hshort
    omega
  full := by
    intro part hpart
    cases parts with
    | nil => exact nomatch hpart
    | cons first parts =>
      rw [List.dropLast_cons_of_ne_nil (List.cons_ne_nil _ _)] at hpart
      rcases List.mem_cons.1 hpart with rfl | hpart
      · exact hpiece
      · exact h.full part hpart
  within := by
    intro part hpart
    rcases List.mem_cons.1 hpart with rfl | hpart
    · exact ⟨List.length_pos_iff.1 (by omega), Nat.le_of_eq hpiece⟩
    · exact h.within part hpart

/-- A word in several pieces begins with a full row, and what is left is in the other pieces. -/
theorem tail {piece : Text} (h : IsCut width word (piece :: parts)) (hparts : parts ≠ []) :
    piece.length = width ∧ IsCut width parts.flatten parts := by
  have hdrop : (piece :: parts).dropLast = piece :: parts.dropLast :=
    List.dropLast_cons_of_ne_nil hparts
  have hfull : ∀ part ∈ parts.dropLast, part.length = width := fun part hpart =>
    h.full part (hdrop ▸ List.mem_cons_of_mem _ hpart)
  have hwithin : ∀ part ∈ parts, part ≠ [] ∧ part.length ≤ width := fun part hpart =>
    h.within part (List.mem_cons_of_mem _ hpart)
  refine ⟨h.full piece (hdrop ▸ List.mem_cons_self), rfl, ?_, hfull, hwithin⟩
  intro hshort
  cases parts with
  | nil => exact absurd rfl hparts
  | cons first parts =>
    cases parts with
    | nil => simp
    | cons second parts =>
      -- two pieces do not fit into a row, as the first of them is a full one
      have hfirst := hfull first (by simp)
      have hsecond := List.length_pos_iff.2 (hwithin second (by simp)).1
      simp only [List.flatten_cons, List.length_append] at hshort
      omega

end IsCut

namespace WordRow

variable {width : Nat} {rest : List WordRow}

/-- Every word that rows spell has a piece at least. -/
theorem ne_nil_of_mem_spelled {rows : List WordRow} {parts : List Text} (h : parts ∈ spelled rows) :
    parts ≠ [] := by
  induction rows generalizing parts with
  | nil => exact nomatch h
  | cons row rows ih =>
    cases row with
    | words ws =>
      rcases List.mem_append.1 h with h | h
      · obtain ⟨w, -, rfl⟩ := List.mem_map.1 h
        exact List.cons_ne_nil _ _
      · exact ih h
    -- a piece of a word goes to the word that the next row begins with
    | cut piece =>
      rw [spelled] at h
      split at h
      · cases List.mem_singleton.1 h
        exact List.cons_ne_nil _ _
      · rename_i first behind hspelled
        rcases List.mem_cons.1 h with rfl | h
        · exact List.cons_ne_nil _ _
        · exact ih (hspelled ▸ List.mem_cons_of_mem _ h)

/-- Rows that spell nothing are none at all. -/
theorem eq_nil_of_spelled {rows : List WordRow} (hfirst : ∀ row ∈ rows, row.first ≠ [])
    (h : spelled rows = []) : rows = [] := by
  cases rows with
  | nil => rfl
  | cons row rows =>
    cases row with
    | words ws =>
      cases ws with
      | nil => exact absurd rfl (hfirst _ List.mem_cons_self)
      | cons => exact nomatch h
    | cut piece =>
      rw [spelled] at h
      split at h <;> exact nomatch h

/-- The words of a row are those that it spells first. -/
theorem words_of_spelled {ws row : List Text} {others : List (List Text)}
    (h : List.Forall₂ (IsCut width) ws (row.map ([·]) ++ others)) :
    ∃ behind, ws = row ++ behind ∧ List.Forall₂ (IsCut width) behind others := by
  induction row generalizing ws with
  | nil => exact ⟨ws, rfl, h⟩
  | cons w row ih =>
    cases h with
    | cons hcut hrest =>
      obtain ⟨behind, rfl, hbehind⟩ := ih hrest
      exact ⟨behind, by rw [hcut.eq_of_single]; rfl, hbehind⟩

end WordRow

namespace IsSet

variable {width : Nat} {word : Text} {ws : List Text} {rows : List WordRow}

/-- No words are set in no rows. -/
theorem nil : IsSet width [] [] where
  spells := .nil
  fits := nofun
  tight := .nil

/-- Some words set in rows begin with the first of them, or with as much of it as a row holds. -/
theorem first_cases (h : IsSet width (word :: ws) rows) :
    ∃ row rest, rows = row :: rest ∧
      (row.first = word ∨ row.first.length = width ∧ width ≤ word.length) := by
  cases rows with
  | nil => exact nomatch h.spells
  | cons row rest =>
    refine ⟨row, rest, rfl, ?_⟩
    have hspells := h.spells
    -- a row of words begins with a whole word, a cut one with a full row of it
    cases row with
    | words vs =>
      cases vs with
      | nil => exact absurd rfl (h.fits _ List.mem_cons_self).1
      | cons v vs =>
        cases hspells with
        | cons hcut hrest => exact Or.inl hcut.eq_of_single
    | cut piece =>
      rw [WordRow.spelled] at hspells
      split at hspells
      · cases hspells with
        | cons hcut hrest => exact Or.inl hcut.eq_of_single
      · rename_i first behind hspelled
        cases hspells with
        | cons hcut hrest =>
          have hmem : first ∈ WordRow.spelled rest := hspelled ▸ List.mem_cons_self
          have hne := WordRow.ne_nil_of_mem_spelled hmem
          have hpiece := (hcut.tail hne).1
          refine Or.inr ⟨hpiece, ?_⟩
          rw [← hcut.whole, List.flatten_cons, List.length_append]
          show width ≤ piece.length + _
          omega

/-- A row of words in front of others that would not have fitted into it. -/
theorem words_cons {row : List Text} (hne : row ≠ []) (hrow : [] ∉ row)
    (hfits : (joinWith [' '] row).length ≤ width)
    (hends : ∀ word rest, ws = word :: rest → width < (joinWith [' '] row).length + 1 + word.length)
    (h : IsSet width ws rows) : IsSet width (row ++ ws) (.words row :: rows) where
  spells := by
    have hword : ∀ w ∈ row, IsCut width w [w] := by
      intro w hw
      exact .single (fun he => hrow (he ▸ hw)) (Nat.le_trans (length_le_joinWith hw) hfits)
    refine List.rel_append ?_ h.spells
    rw [List.forall₂_map_right_iff, List.forall₂_same]
    exact hword
  fits := by
    intro r hr
    rcases List.mem_cons.1 hr with rfl | hr
    · refine ⟨?_, hfits⟩
      cases row with
      | nil => exact absurd rfl hne
      | cons w row => exact fun he => hrow (he ▸ List.mem_cons_self)
    · exact h.fits r hr
  tight := by
    cases ws with
    | nil =>
      have hnone : rows = [] := by
        refine WordRow.eq_nil_of_spelled (fun r hr => (h.fits r hr).1) ?_
        exact List.forall₂_nil_left_iff.1 h.spells
      rw [hnone]
      exact .singleton _
    | cons word rest =>
      -- the next row begins with the word that did not fit, or is full itself
      obtain ⟨next, others, rfl, hfirst⟩ := h.first_cases
      have hwide := hends word rest rfl
      have hpos : 0 < (joinWith [' '] row).length := List.length_pos_iff.2 (joinWith_ne_nil hne hrow)
      refine .cons_cons ?_ h.tight
      show width < (joinWith [' '] row).length + 1 + next.first.length
      rcases hfirst with hfirst | ⟨hfirst, -⟩
      · rw [hfirst]
        exact hwide
      · omega

/-- A full row of a word in front of what is left of it. -/
theorem cut_cons {piece left : Text} (hwidth : 0 < width) (hpiece : piece.length = width)
    (h : IsSet width (left :: ws) rows) : IsSet width ((piece ++ left) :: ws) (.cut piece :: rows) where
  spells := by
    rw [WordRow.spelled]
    -- the rest of the word is the first of what the other rows spell, and gets one more piece
    cases hspelled : WordRow.spelled rows with
    | nil =>
      have hspells := h.spells
      rw [hspelled] at hspells
      exact nomatch hspells
    | cons first behind =>
      have hspells := h.spells
      rw [hspelled] at hspells
      cases hspells with
      | cons hcut hrest => exact .cons (hcut.cons hwidth hpiece) hrest
  fits := by
    intro r hr
    rcases List.mem_cons.1 hr with rfl | hr
    · exact ⟨List.length_pos_iff.1 (by omega : 0 < piece.length), Nat.le_of_eq hpiece⟩
    · exact h.fits r hr
  tight := by
    -- a piece may stand in front of any row, but there is one
    obtain ⟨next, others, rfl, -⟩ := h.first_cases
    exact .cons_cons trivial h.tight

end IsSet

/-! ## The loop sets the words

The loop may be in the middle of a row, so the statement has to be about that: the row in progress and
the words behind it are set together.  Its cases are those of the loop, by whether the word fits,
begins a row, ends one, or is cut. -/

section

variable {width : Nat}

/-- A row takes in a word that fits. -/
theorem setWords_next {row : List Text} {word : Text} (hrow : joinWith [' '] row ≠ [])
    (hroom : (joinWith [' '] row).length + 1 + word.length ≤ width) (rest : List Text) :
    setWords width (joinWith [' '] row) (word :: rest) =
      setWords width (joinWith [' '] (row ++ [word])) rest := by
  have hne : row ≠ [] := by
    rintro rfl
    exact hrow rfl
  have hnext : joinWith [' '] row ++ ' ' :: word = joinWith [' '] (row ++ [word]) := by
    rw [joinWith_append hne (List.cons_ne_nil _ _), List.append_assoc]
    rfl
  rw [setWords_more hrow hroom, hnext]

/-- A row takes in all words that fit. -/
theorem setWords_row {row vs : List Text} (hrow : joinWith [' '] row ≠ [])
    (hfits : (joinWith [' '] (row ++ vs)).length ≤ width) (behind : List Text) :
    setWords width (joinWith [' '] row) (vs ++ behind) =
      setWords width (joinWith [' '] (row ++ vs)) behind := by
  induction vs generalizing row with
  | nil => rw [List.append_nil, List.nil_append]
  | cons v vs ih =>
    have hne : row ≠ [] := by
      rintro rfl
      exact hrow rfl
    have hv : v.length ≤ (joinWith [' '] (v :: vs)).length := length_le_joinWith List.mem_cons_self
    -- a word of the row fits, because all of them do together
    have hroom : (joinWith [' '] row).length + 1 + v.length ≤ width := by
      rw [joinWith_append hne (List.cons_ne_nil _ _)] at hfits
      simp only [List.length_append, List.length_singleton] at hfits
      omega
    have hnext : joinWith [' '] (row ++ [v]) ≠ [] := by
      rw [joinWith_append hne (List.cons_ne_nil _ _)]
      simp
    have hall : row ++ v :: vs = row ++ [v] ++ vs := by simp
    rw [hall] at hfits ⊢
    rw [List.cons_append, setWords_next hrow hroom, ih hnext hfits]

/-- Words that the row in progress may hold. -/
structure IsOpenRow (width : Nat) (row : List Text) : Prop where
  words : [] ∉ row
  fits : (joinWith [' '] row).length ≤ width

/-- In the middle of a row, or at the start of one, the loop sets this row and the words behind it. -/
def SetsFrom (width : Nat) (row ws : List Text) : Prop :=
  ∃ rows, IsSet width (row ++ ws) rows ∧
    setWords width (joinWith [' '] row) ws = rows.map WordRow.text

namespace SetsFrom

variable {row rest : List Text} {word : Text}

/-- Without a word and without a row, there is nothing to set. -/
theorem nil : SetsFrom width [] [] := ⟨[], .nil, rfl⟩

/-- Behind the last word, the row is ended. -/
theorem last (hne : row ≠ []) (hrow : IsOpenRow width row) : SetsFrom width row [] := by
  have htext : joinWith [' '] row ≠ [] := joinWith_ne_nil hne hrow.words
  have hempty : (joinWith [' '] row).isEmpty = false := by simpa using htext
  refine ⟨[.words row], IsSet.nil.words_cons hne hrow.words hrow.fits nofun, ?_⟩
  rw [setWords, hempty]
  rfl

/-- A word that is too long is cut, and the loop goes on with what is left of it. -/
theorem cut (hwidth : 0 < width) (hlong : width < word.length)
    (h : SetsFrom width [] (word.drop width :: rest)) : SetsFrom width [] (word :: rest) := by
  have hpiece : (word.take width).length = width := List.length_take_of_le (Nat.le_of_lt hlong)
  have hleft : word.drop width ≠ [] := by
    rw [Ne, List.drop_eq_nil_iff]
    omega
  obtain ⟨rows, hset, heq⟩ := h
  have hrows := hset.cut_cons hwidth hpiece
  have hloop := setWords_cut hwidth hpiece hleft rest
  rw [List.take_append_drop] at hrows hloop
  refine ⟨.cut (word.take width) :: rows, hrows, ?_⟩
  show setWords width [] (word :: rest) = word.take width :: rows.map WordRow.text
  rw [hloop, ← heq]
  rfl

/-- A word that a row holds begins one. -/
theorem start (hshort : word.length ≤ width) (h : SetsFrom width [word] rest) :
    SetsFrom width [] (word :: rest) := by
  obtain ⟨rows, hset, heq⟩ := h
  refine ⟨rows, hset, ?_⟩
  show setWords width [] (word :: rest) = rows.map WordRow.text
  rw [setWords_start hshort, ← heq]
  rfl

/-- A word that does not fit ends the row. -/
theorem full (hne : row ≠ []) (hrow : IsOpenRow width row)
    (hfull : width < (joinWith [' '] row).length + 1 + word.length)
    (h : SetsFrom width [] (word :: rest)) : SetsFrom width row (word :: rest) := by
  obtain ⟨rows, hset, heq⟩ := h
  refine ⟨.words row :: rows, hset.words_cons hne hrow.words hrow.fits ?_, ?_⟩
  · rintro first others hcons
    cases hcons
    exact hfull
  · rw [setWords_full (joinWith_ne_nil hne hrow.words) hfull]
    exact congrArg (joinWith [' '] row :: ·) heq

/-- A word that fits goes into the row. -/
theorem next (hne : row ≠ []) (hrow : IsOpenRow width row)
    (hroom : (joinWith [' '] row).length + 1 + word.length ≤ width)
    (h : SetsFrom width (row ++ [word]) rest) : SetsFrom width row (word :: rest) := by
  obtain ⟨rows, hset, heq⟩ := h
  rw [List.append_assoc] at hset
  exact ⟨rows, hset, by rw [setWords_next (joinWith_ne_nil hne hrow.words) hroom, heq]⟩

end SetsFrom

namespace IsOpenRow

variable {row : List Text} {word : Text}

/-- A row that holds nothing is open. -/
theorem nil : IsOpenRow width [] := ⟨List.not_mem_nil, Nat.zero_le _⟩

/-- A word that fits makes an open row. -/
theorem single (hword : word ≠ []) (h : word.length ≤ width) : IsOpenRow width [word] :=
  ⟨fun he => hword (List.mem_singleton.1 he).symm, h⟩

/-- A word that fits may be added to an open row. -/
theorem append (hrow : IsOpenRow width row) (hne : row ≠ []) (hword : word ≠ [])
    (hroom : (joinWith [' '] row).length + 1 + word.length ≤ width) : IsOpenRow width (row ++ [word]) where
  words := by
    intro he
    rcases List.mem_append.1 he with he | he
    · exact hrow.words he
    · exact hword (List.mem_singleton.1 he).symm
  fits := by
    rw [joinWith_append hne (List.cons_ne_nil _ _), List.length_append, List.length_append]
    exact hroom

end IsOpenRow

/-- **The loop sets the words**, whatever row it is in. -/
theorem setsFrom (hwidth : 0 < width) (ws : List Text) (hws : [] ∉ ws) :
    ∀ row, IsOpenRow width row → SetsFrom width row ws := by
  -- a word that is cut leaves a shorter one behind, so the induction is on the characters to come
  induction hlength : ws.flatten.length using Nat.strong_induction_on generalizing ws with
  | _ n ih =>
    subst hlength
    cases ws with
    | nil =>
      intro row hrow
      rcases eq_or_ne row [] with rfl | hne
      · exact .nil
      · exact .last hne hrow
    | cons word rest =>
      have hword : word ≠ [] := fun he => hws (he ▸ List.mem_cons_self)
      have hrest : [] ∉ rest := fun he => hws (List.mem_cons_of_mem _ he)
      have hpos : 0 < word.length := List.length_pos_iff.2 hword
      have hless : rest.flatten.length < (word :: rest).flatten.length := by
        rw [List.flatten_cons, List.length_append]
        omega
      have hlater := ih _ hless rest hrest rfl
      have hstart : SetsFrom width [] (word :: rest) := by
        rcases Nat.lt_or_ge width word.length with hlong | hshort
        · have hcut : (word.drop width :: rest).flatten.length < (word :: rest).flatten.length := by
            simp only [List.flatten_cons, List.length_append, List.length_drop]
            omega
          have hleft : [] ∉ word.drop width :: rest := by
            intro he
            rcases List.mem_cons.1 he with he | he
            · exact absurd (List.drop_eq_nil_iff.1 he.symm) (Nat.not_le.2 hlong)
            · exact hrest he
          exact .cut hwidth hlong (ih _ hcut _ hleft rfl [] .nil)
        · exact .start hshort (hlater [word] (.single hword hshort))
      intro row hrow
      rcases eq_or_ne row [] with rfl | hne
      · exact hstart
      rcases Nat.lt_or_ge width ((joinWith [' '] row).length + 1 + word.length) with hfull | hroom
      · exact .full hne hrow hfull hstart
      · exact .next hne hrow hroom (hlater _ (hrow.append hne hword hroom))

/-- From the start, the loop sets all words. -/
theorem exists_isSet (hwidth : 0 < width) (ws : List Text) (hws : [] ∉ ws) :
    ∃ rows, IsSet width ws rows ∧ setWords width [] ws = rows.map WordRow.text :=
  setsFrom hwidth ws hws [] .nil

/-! ## There is no other way to set them

The induction is on the rows.  A row of words is what the loop makes of its words, because the next
one would not have fitted into it; a piece of a word is what the loop cuts off. -/

namespace IsSet

variable {ws : List Text} {rest : List WordRow}

/-- What is set behind a row of words, and why it is not in that row. -/
theorem of_words_cons {row : List Text} (h : IsSet width ws (.words row :: rest)) :
    ∃ behind, ws = row ++ behind ∧ IsSet width behind rest ∧
      ∀ word others, behind = word :: others →
        width < (joinWith [' '] row).length + 1 + word.length := by
  obtain ⟨behind, rfl, hbehind⟩ := WordRow.words_of_spelled h.spells
  have hset : IsSet width behind rest :=
    ⟨hbehind, fun r hr => h.fits r (List.mem_cons_of_mem _ hr), h.tight.tail⟩
  refine ⟨behind, rfl, hset, ?_⟩
  rintro word others rfl
  obtain ⟨next, later, rfl, hnext⟩ := hset.first_cases
  have hends : width < (joinWith [' '] row).length + 1 + next.first.length :=
    (List.isChain_cons_cons.1 h.tight).1
  rcases hnext with hnext | ⟨hnext, hlong⟩
  · rwa [hnext] at hends
  · omega

/-- Behind a piece of a word, what is left of the word is set, if anything is. -/
theorem of_cut_cons {piece : Text} (h : IsSet width ws (.cut piece :: rest)) :
    ws = [piece] ∧ rest = [] ∨
      ∃ left others, ws = (piece ++ left) :: others ∧ piece.length = width ∧
        IsSet width (left :: others) rest := by
  have hfits : ∀ r ∈ rest, r.first ≠ [] ∧ r.text.length ≤ width := fun r hr =>
    h.fits r (List.mem_cons_of_mem _ hr)
  have hspells := h.spells
  rw [WordRow.spelled] at hspells
  -- the word ends with the piece, or goes on in the next row
  split at hspells
  · rename_i hspelled
    cases hspells with
    | cons hcut hrest =>
      cases hrest
      exact Or.inl ⟨by rw [hcut.eq_of_single],
        WordRow.eq_nil_of_spelled (fun r hr => (hfits r hr).1) hspelled⟩
  · rename_i first behind hspelled
    cases hspells with
    | @cons _ _ others _ hcut hrest =>
      have hmem : first ∈ WordRow.spelled rest := hspelled ▸ List.mem_cons_self
      have hne := WordRow.ne_nil_of_mem_spelled hmem
      obtain ⟨hpiece, hleft⟩ := hcut.tail hne
      refine Or.inr ⟨first.flatten, others, ?_, hpiece, ?_, hfits, h.tight.tail⟩
      · rw [← hcut.whole, List.flatten_cons]
      · rw [hspelled]
        exact .cons hleft hrest

/-- Words that are set are not empty. -/
theorem ne_nil_of_mem {word : Text} {rows : List WordRow} (h : IsSet width ws rows) (hword : word ∈ ws) :
    word ≠ [] := by
  obtain ⟨hspells, -, -⟩ := h
  generalize WordRow.spelled rows = parts at hspells
  induction hspells with
  | nil => exact nomatch hword
  | cons hcut hrest ih =>
    rcases List.mem_cons.1 hword with rfl | hword
    · exact hcut.ne_nil
    · exact ih hword

/-- **Words are set in one way**: whatever rows set them, their text is what the loop makes. -/
theorem text_eq (hwidth : 0 < width) {rows : List WordRow} (h : IsSet width ws rows) :
    setWords width [] ws = rows.map WordRow.text := by
  induction rows generalizing ws with
  | nil =>
    cases List.forall₂_nil_right_iff.1 h.spells
    rfl
  | cons row rest ih =>
    obtain ⟨hfirst, hfits⟩ := h.fits _ List.mem_cons_self
    cases row with
    | words vs =>
      -- a row of words: the loop fills it with just these, since they fit and the next one does not
      obtain ⟨behind, rfl, hset, hends⟩ := h.of_words_cons
      cases vs with
      | nil => exact absurd rfl hfirst
      | cons v vs =>
        have hrow : joinWith [' '] (v :: vs) ≠ [] :=
          joinWith_ne_nil (List.cons_ne_nil _ _) fun he =>
            h.ne_nil_of_mem (List.mem_append_left behind he) rfl
        have hshort : v.length ≤ width := Nat.le_trans (length_le_joinWith List.mem_cons_self) hfits
        have hfill : setWords width v (vs ++ behind) = setWords width (joinWith [' '] (v :: vs)) behind :=
          @setWords_row width [v] vs hfirst hfits behind
        rw [List.cons_append, setWords_start hshort, hfill]
        cases behind with
        | nil =>
          have hnone : rest = [] := WordRow.eq_nil_of_spelled (fun r hr => (hset.fits r hr).1)
            (List.forall₂_nil_left_iff.1 hset.spells)
          rw [setWords, if_neg (by simpa using hrow), hnone]
          rfl
        | cons word others =>
          rw [setWords_full hrow (hends word others rfl), ih hset]
          rfl
    | cut piece =>
      -- a piece of a word: the loop cuts it off too, unless it is all that there is
      rcases h.of_cut_cons with ⟨rfl, rfl⟩ | ⟨left, others, rfl, hpiece, hset⟩
      · have hshort : piece.length ≤ width := hfits
        have hpiece : piece ≠ [] := hfirst
        rw [setWords_start hshort, setWords, if_neg (by simpa using hpiece)]
        rfl
      · rw [setWords_cut hwidth hpiece (hset.ne_nil_of_mem List.mem_cons_self) others, ih hset]
        rfl

end IsSet

end

end TunnelBoard
