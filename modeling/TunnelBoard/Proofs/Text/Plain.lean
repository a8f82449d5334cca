import TunnelBoard.Style.Basic
import TunnelBoard.Text.Wrap
/-
  Text without escape characters, and text that leaves the reader between sequences.

  Text without escape characters is shown as it is, wherever it stands behind complete text.  Styles
  are control sequences of digits and semicolons: nothing of them is shown (`strip_attributes`), and
  whatever stands before one, the reader is between sequences behind it (`after_attributes`).  So a
  row that ends in a style is complete, even if some of its text is torn.

  Plain text is closed under all that is done to text here: it is appended, repeated, joined and cut,
  and numbers are plain because digits are.  How the reader gets along with a piece is said by where
  it is afterwards and by what it has shown; both come from one induction on the piece
  (`read_of_isPlain`, `read_inside`), which is why the two stand together in each statement.
-/

namespace TunnelBoard

/-- Text without escape characters. -/
def IsPlain (s : Text) : Prop := esc ∉ s

instance (s : Text) : Decidable (IsPlain s) := inferInstanceAs (Decidable (esc ∉ s))

namespace IsPlain

variable {s t : Text}

theorem nil : IsPlain [] := List.not_mem_nil

theorem cons {c : Char} (hc : c ≠ esc) (h : IsPlain s) : IsPlain (c :: s) := by
  intro he
  rcases List.mem_cons.1 he with he | he
  · exact hc he.symm
  · exact h he

theorem append (hs : IsPlain s) (ht : IsPlain t) : IsPlain (s ++ t) := by
  intro he
  rcases List.mem_append.1 he with he | he
  · exact hs he
  · exact ht he

/-- What is made of the characters of plain text is plain. -/
theorem of_subset (ht : IsPlain t) (h : s ⊆ t) : IsPlain s := fun he => ht (h he)

theorem replicate (n : Nat) {c : Char} (hc : c ≠ esc) : IsPlain (List.replicate n c) :=
  fun he => hc (List.eq_of_mem_replicate he).symm

theorem joinWith {sep : Text} (hsep : IsPlain sep) {pieces : List Text}
    (h : ∀ piece ∈ pieces, IsPlain piece) : IsPlain (joinWith sep pieces) := by
  induction pieces with
  | nil => exact nil
  | cons piece rest ih =>
    have hrest := ih fun p hp => h p (List.mem_cons_of_mem _ hp)
    cases rest with
    | nil => exact h piece List.mem_cons_self
    | cons => exact ((h piece List.mem_cons_self).append hsep).append hrest

end IsPlain

theorem isPlain_spaces (n : Nat) : IsPlain (spaces n) := .replicate n (by decide)

/-! ## Digits -/

/-- The code points of the digits. -/
theorem digit_bounds {c : Char} (h : c.isDigit = true) : 48 ≤ c.toNat ∧ c.toNat ≤ 57 := by
  simp only [Char.isDigit, Bool.and_eq_true, decide_eq_true_eq, UInt32.le_iff_toNat_le] at h
  exact h

/-- Those of the characters that end a control sequence.  No digit is among them. -/
theorem isFinal_bounds {c : Char} (h : isFinal c = true) : 64 ≤ c.toNat ∧ c.toNat ≤ 126 := by
  simp only [isFinal, Bool.and_eq_true, decide_eq_true_eq, Char.le_def, UInt32.le_iff_toNat_le] at h
  exact h

/-- The escape character is no digit. -/
theorem ne_esc_of_isDigit {c : Char} (h : c.isDigit = true) : c ≠ esc := by
  rintro rfl
  exact absurd h (by decide)

/-- A number is written in digits. -/
theorem isDigit_of_mem_natText {n : Nat} {c : Char} (h : c ∈ natText n) : c.isDigit = true :=
  Nat.isDigit_of_mem_toDigits (by decide) (by decide) h

theorem isPlain_natText (n : Nat) : IsPlain (natText n) :=
  fun he => ne_esc_of_isDigit (isDigit_of_mem_natText he) rfl

theorem isPlain_natTextPadded (width n : Nat) : IsPlain (natTextPadded width n) :=
  (IsPlain.replicate _ (by decide)).append (isPlain_natText n)

/-! ## Reading

Plain text leaves the reader where it is.  Inside a sequence so do all characters but those that end
it. -/

namespace Scan

variable {s : Text}

/-- Plain text leaves the reader where it is, and all of it is shown. -/
theorem read_of_isPlain (h : IsPlain s) : plain.after s = plain ∧ plain.shown s = s := by
  induction s with
  | nil => exact ⟨rfl, rfl⟩
  | cons c s ih =>
    have hc : c ≠ esc := fun he => h (he ▸ List.mem_cons_self)
    obtain ⟨hafter, hshown⟩ := ih fun he => h (List.mem_cons_of_mem _ he)
    have hnext : plain.next c = plain := if_neg hc
    have hshows : plain.shows c = true := decide_eq_true hc
    constructor
    · rw [after_cons, hnext, hafter]
    · rw [shown, if_pos hshows, hnext, hshown]

/-- What is shown is plain. -/
theorem isPlain_shown (q : Scan) (s : Text) : IsPlain (q.shown s) := by
  induction s generalizing q with
  | nil => exact .nil
  | cons c s ih =>
    unfold shown
    split
    · rename_i hshows
      cases q with
      | plain => exact .cons (of_decide_eq_true hshows) (ih _)
      | escape | control | command | commandEscape => cases hshows
    · exact ih _

/-- Characters that leave the reader where it is, and are not shown there. -/
theorem read_inside {q : Scan} (h : ∀ c ∈ s, q.next c = q ∧ q.shows c = false) :
    q.after s = q ∧ q.shown s = [] := by
  induction s with
  | nil => exact ⟨rfl, shown_nil q⟩
  | cons c s ih =>
    obtain ⟨hnext, hhidden⟩ := h c List.mem_cons_self
    obtain ⟨hafter, hshown⟩ := ih fun d hd => h d (List.mem_cons_of_mem _ hd)
    constructor
    · rw [after_cons, hnext, hafter]
    · rw [shown, if_neg (by rw [hhidden]; decide), hnext, hshown]

/-- Inside a control sequence, up to its final character. -/
theorem read_params (h : ∀ c ∈ s, isFinal c = false) :
    control.after s = control ∧ control.shown s = [] :=
  read_inside fun c hc => ⟨if_neg (by rw [h c hc]; decide), rfl⟩

/-- Inside an operating-system command, up to a bell or an escape character. -/
theorem read_body (h : ∀ c ∈ s, c ≠ bell ∧ c ≠ esc) :
    command.after s = command ∧ command.shown s = [] := by
  refine read_inside fun c hc => ⟨?_, rfl⟩
  obtain ⟨hbell, hesc⟩ := h c hc
  rw [next, if_neg hbell, if_neg hesc]

/-- A shown character leaves the reader where it is. -/
theorem next_of_shows {q : Scan} {c : Char} (h : q.shows c = true) : q.next c = q := by
  cases q with
  | plain => exact if_neg (of_decide_eq_true h)
  | escape | control | command | commandEscape => exact nomatch h

/-- Without what is shown, the reader comes to the same place, and nothing is shown. -/
theorem read_hidden (q : Scan) (s : Text) :
    q.after (q.hidden s) = q.after s ∧ q.shown (q.hidden s) = [] := by
  induction s generalizing q with
  | nil => simp
  | cons c s ih =>
    unfold hidden
    split
    · rename_i hshows
      rw [after_cons, next_of_shows hshows]
      exact ih q
    · rename_i hshows
      obtain ⟨hafter, hshown⟩ := ih (q.next c)
      constructor
      · rw [after_cons, after_cons, hafter]
      · rw [shown, if_neg hshows, hshown]

end Scan

/-- Plain text is complete. -/
theorem complete_of_isPlain {s : Text} (h : IsPlain s) : Complete s := (Scan.read_of_isPlain h).1

/-- Of plain text all is shown. -/
theorem strip_of_isPlain {s : Text} (h : IsPlain s) : strip s = s := (Scan.read_of_isPlain h).2

/-- Plain text is as wide as it is long. -/
theorem visibleWidth_of_isPlain {s : Text} (h : IsPlain s) : visibleWidth s = s.length := by
  rw [visibleWidth, strip_of_isPlain h]

/-- What a text shows is plain. -/
theorem isPlain_strip (s : Text) : IsPlain (strip s) := Scan.plain.isPlain_shown s

/-- Two complete texts are complete together. -/
theorem Complete.append {s t : Text} (hs : Complete s) (ht : Complete t) : Complete (s ++ t) := by
  unfold Complete at *
  rw [Scan.after_append, hs, ht]

/-- Behind complete text the widths add up. -/
theorem visibleWidth_append {s : Text} (h : Complete s) (t : Text) :
    visibleWidth (s ++ t) = visibleWidth s + visibleWidth t := by
  rw [visibleWidth, strip_append h, List.length_append]
  rfl

/-! ## Styles -/

/-- Parameters of a control sequence: digits and semicolons. -/
def IsParams (s : Text) : Prop := ∀ c ∈ s, c.isDigit = true ∨ c = ';'

theorem IsParams.append {s t : Text} (hs : IsParams s) (ht : IsParams t) : IsParams (s ++ t) := by
  intro c hc
  rcases List.mem_append.1 hc with hc | hc
  · exact hs c hc
  · exact ht c hc

/-- A number may be a parameter. -/
theorem isParams_natText (n : Nat) : IsParams (natText n) :=
  fun _ hc => Or.inl (isDigit_of_mem_natText hc)

theorem isParams_foreground (n : Nat) : IsParams (foreground n) :=
  IsParams.append (by simp [IsParams]) (isParams_natText n)

theorem isParams_background (n : Nat) : IsParams (background n) :=
  IsParams.append (by simp [IsParams]) (isParams_natText n)

section

variable {params : Text}

/-- There is no escape character among parameters. -/
theorem IsParams.isPlain (h : IsParams params) : IsPlain params := by
  intro he
  rcases h _ he with hd | hs
  · exact ne_esc_of_isDigit hd rfl
  · exact absurd hs (by decide)

/-- No parameter ends its sequence. -/
theorem IsParams.not_final (h : IsParams params) {c : Char} (hc : c ∈ params) : isFinal c = false := by
  cases hfinal : isFinal c with
  | false => rfl
  | true =>
    rcases h c hc with hd | rfl
    · have hlow := digit_bounds hd
      have hhigh := isFinal_bounds hfinal
      omega
    · exact absurd hfinal (by decide)

/-- Parameters end no control sequence, and are not shown inside one. -/
theorem read_params (h : IsParams params) :
    Scan.control.after params = .control ∧ Scan.control.shown params = [] :=
  Scan.read_params fun _ hc => h.not_final hc

/-- Behind a style the reader is between sequences, wherever it was before. -/
theorem after_attributes (h : IsParams params) (q : Scan) : q.after (attributes params) = .plain := by
  obtain ⟨hcontrol, -⟩ := read_params h
  obtain ⟨hplain, -⟩ := Scan.read_of_isPlain h.isPlain
  unfold attributes
  rw [List.cons_append, List.cons_append, Scan.after_cons, Scan.after_cons, Scan.after_append]
  -- the escape character opens a sequence, or it ends the one that was open
  have hopen : (q.next esc).next '[' = .control ∨ (q.next esc).next '[' = .plain := by
    cases q with
    | plain => exact Or.inl rfl
    | escape | control | command | commandEscape => exact Or.inr rfl
  rcases hopen with hopen | hopen
  · rw [hopen, hcontrol]
    rfl
  · rw [hopen, hplain]
    rfl

/-- A style is complete. -/
theorem complete_attributes (h : IsParams params) : Complete (attributes params) := after_attributes h _

/-- Nothing of a style is shown. -/
theorem strip_attributes (h : IsParams params) : strip (attributes params) = [] := by
  obtain ⟨hafter, hshown⟩ := read_params h
  show Scan.control.shown (params ++ ['m']) = []
  rw [Scan.shown_append, hafter, hshown]
  rfl

end
end TunnelBoard
