import TunnelBoard.Proofs.Frame.Screen
/-
  Boxed content on a screen.

  The two theorems say for which content a screen is exact: for any with colour (`exact_of_coloured`),
  and without colour for all but lines that are torn and narrow (`exact_iff_of_blank`).  A line is
  torn if it ends inside an operating-system command; the other unfinished sequences end in the margin
  of the box or at its border.

  With colour the border is painted, and painting ends with the base style, behind which nothing is
  open (`complete_painted`).  Without colour a row ends in a space and a bar, which between them end
  any sequence but a command (`complete_boxed_iff`).  So what the reader makes of the last characters
  of a row decides, and the rest is a matter of finding that row on the screen.
-/

namespace TunnelBoard

/-- Whether a line ends inside an operating-system command. -/
def IsTorn (line : Text) : Prop := Scan.plain.after line = .command

instance (line : Text) : Decidable (IsTorn line) := inferInstanceAs (Decidable (_ = _))

/-- Plain text is not torn. -/
theorem not_isTorn_of_isPlain {line : Text} (h : IsPlain line) : ¬ IsTorn line := by
  have hcomplete : Complete line := complete_of_isPlain h
  unfold IsTorn
  rw [show Scan.plain.after line = .plain from hcomplete]
  exact nofun

/-! ## With colour -/

namespace StyleSet

variable (theme : Theme)

/-- The parameters of the base style. -/
theorem isParams_base : IsParams ("0;".toList ++ background theme.palette.background ++
    ';' :: foreground theme.palette.text) := by
  refine IsParams.append (IsParams.append (by simp [IsParams]) (isParams_background _)) ?_
  exact IsParams.append (s := [';']) (by simp [IsParams]) (isParams_foreground _)

/-- The base style is not seen. -/
theorem isUnseen_base : IsUnseen (coloured theme).base :=
  ⟨complete_attributes (isParams_base theme), strip_attributes (isParams_base theme)⟩

/-- Neither is what takes it back. -/
theorem isUnseen_reset : IsUnseen (coloured theme).reset := by
  have hparams : IsParams ['0'] := by simp [IsParams]
  exact ⟨complete_attributes hparams, strip_attributes hparams⟩

/-- What ends in painted text is complete, whatever was painted. -/
theorem complete_painted (before : Text) (role : Role) (text : Text) :
    Complete (before ++ (coloured theme).paint role text) := by
  have hopening : ((coloured theme).opening role).isEmpty = false := by
    cases role with
    | text | muted | brand | accent | active | frame => rfl
  unfold Complete paint
  rw [hopening, if_neg (by decide), Scan.after_append, Scan.after_append]
  exact after_attributes (isParams_base theme) _

end StyleSet

/-- With colour, every row of a box is complete. -/
theorem complete_of_mem_card (theme : Theme) (lines : List Text) (contentWidth : Nat) :
    ∀ b ∈ card lines contentWidth (.coloured theme), Complete b := by
  intro b hb
  have hborder : ∀ text, Complete ((StyleSet.coloured theme).paint .frame text) :=
    StyleSet.complete_painted theme [] .frame
  unfold card at hb
  simp only [List.cons_append, List.mem_cons, List.mem_append, List.mem_map, List.not_mem_nil,
    or_false] at hb
  rcases hb with rfl | ⟨line, -, rfl⟩ | rfl
  · exact hborder _
  · -- a row ends in its right edge
    have hedge := StyleSet.complete_painted theme ((StyleSet.coloured theme).paint .frame ['|'] ++
      ' ' :: padRight (reapplyBase line (StyleSet.coloured theme).base)
        (max (max contentWidth 1) (widest lines)) ++ [' ']) .frame ['|']
    rw [List.append_assoc _ [' ']] at hedge
    exact hedge
  · exact hborder _

/-- **With colour a screen is exact**, whatever its content. -/
theorem exact_of_coloured (theme : Theme) (lines : List Text) (contentWidth width height : Nat) :
    ∀ row ∈ fill (center (card lines contentWidth (.coloured theme)) width height) width height
      (StyleSet.coloured theme).base (StyleSet.coloured theme).reset, visibleWidth row = max width 1 :=
  exact_of_complete (StyleSet.isUnseen_base theme) (StyleSet.isUnseen_reset theme)
    (complete_of_mem_center (complete_of_mem_card theme lines contentWidth) width height) width height

/-! ## Without colour

No style stands between a line and the edge of its row.  A line that breaks off inside a sequence may
then swallow what is behind it: the margin, and the edge with it if the line is torn. -/

section

variable (lines : List Text) (contentWidth : Nat)

/-- The width inside a box. -/
def boxWidth : Nat := max (max contentWidth 1) (widest lines)

/-- The border above and below a box without styles. -/
def border : Text := '+' :: List.replicate (boxWidth lines contentWidth + 2) '-' ++ ['+']

/-- A row of a box without styles. -/
def boxed (line : Text) : Text :=
  '|' :: ' ' :: padRight line (boxWidth lines contentWidth) ++ [' ', '|']

/-- Without colour, a box is a row for each line, between two borders. -/
theorem card_blank (theme : Theme) :
    card lines contentWidth (.blank theme) =
      border lines contentWidth :: lines.map (boxed lines contentWidth) ++
        [border lines contentWidth] := rfl

/-- The border of a box is plain. -/
theorem isPlain_border : IsPlain (border lines contentWidth) :=
  .append (.cons (by decide) (.replicate _ (by decide))) (by decide)

/-- The border of a box is wider than the box inside, by margin and corners. -/
theorem visibleWidth_border :
    visibleWidth (border lines contentWidth) = boxWidth lines contentWidth + 4 := by
  rw [visibleWidth_of_isPlain (isPlain_border lines contentWidth)]
  simp only [border, List.cons_append, List.length_cons, List.length_append, List.length_replicate,
    List.length_nil]

variable {lines contentWidth}

/-- An open sequence takes all the spaces that come. -/
theorem after_spaces_of_open {q : Scan} (h : q = .control ∨ q = .command) (n : Nat) :
    q.after (spaces n) = q := by
  induction n with
  | zero => rfl
  | succ n ih =>
    rcases h with rfl | rfl
    · exact ih
    · exact ih

/-- An escape character takes one space with it, and the others are plain again. -/
theorem after_spaces_of_escape {q : Scan} (h : q = .escape ∨ q = .commandEscape) (n : Nat) :
    q.after (spaces (n + 1)) = .plain := by
  have hplain : Scan.plain.after (spaces n) = .plain := complete_of_isPlain (isPlain_spaces n)
  rcases h with rfl | rfl
  · exact hplain
  · exact hplain

/-- The margin of a box ends whatever a line has left open, but for a command. -/
theorem after_margin_eq_plain_iff (q : Scan) (n : Nat) :
    (q.after (spaces n)).after [' ', '|'] = .plain ↔ q ≠ .command := by
  cases q with
  | plain =>
    have hplain : Scan.plain.after (spaces n) = .plain := complete_of_isPlain (isPlain_spaces n)
    rw [hplain]
    decide
  | escape =>
    cases n with
    | zero => decide
    | succ n =>
      rw [after_spaces_of_escape (Or.inl rfl)]
      decide
  | commandEscape =>
    cases n with
    | zero => decide
    | succ n =>
      rw [after_spaces_of_escape (Or.inr rfl)]
      decide
  -- a control sequence is ended by the edge, behind the last space
  | control =>
    rw [after_spaces_of_open (Or.inl rfl)]
    decide
  | command =>
    rw [after_spaces_of_open (Or.inr rfl)]
    decide

/-- The reader behind a row of the box.  Only a torn line is still unfinished there. -/
theorem complete_boxed_iff (line : Text) : Complete (boxed lines contentWidth line) ↔ ¬ IsTorn line := by
  have hafter : Scan.plain.after (boxed lines contentWidth line) =
      ((Scan.plain.after line).after (spaces (boxWidth lines contentWidth - visibleWidth line))).after
        [' ', '|'] := by
    show Scan.plain.after (padRight line _ ++ [' ', '|']) = _
    unfold padRight
    rw [Scan.after_append, Scan.after_append]
  unfold Complete IsTorn
  rw [hafter]
  exact after_margin_eq_plain_iff _ _

example : ∀ line ∈ ["\x1b".toList, "\x1b[3".toList, "\x1b]0\x1b".toList], ¬ IsTorn line := by decide

/-- Of the row of a torn line, nothing is shown behind the line. -/
theorem visibleWidth_boxed_of_isTorn {line : Text} (h : IsTorn line) :
    visibleWidth (boxed lines contentWidth line) = visibleWidth line + 2 := by
  -- a command takes all that is not its end
  have hswallowed : ∀ n, Scan.command.shown (spaces n ++ [' ', '|']) = [] := by
    intro n
    induction n with
    | zero => rfl
    | succ n ih => exact ih
  have hshown : strip (boxed lines contentWidth line) = '|' :: ' ' :: strip line := by
    show '|' :: ' ' :: Scan.plain.shown (padRight line _ ++ [' ', '|']) = _
    unfold padRight
    rw [List.append_assoc, Scan.shown_append, show Scan.plain.after line = .command from h, hswallowed,
      List.append_nil]
    rfl
  rw [visibleWidth, hshown]
  rfl

/-- A box is wider than each of its lines, by its margin and its border. -/
theorem visibleWidth_add_le_widest (contentWidth : Nat) (theme : Theme) {line : Text}
    (h : line ∈ lines) :
    visibleWidth line + 4 ≤ widest (card lines contentWidth (.blank theme)) := by
  have hmem : border lines contentWidth ∈ card lines contentWidth (.blank theme) := by
    rw [card_blank]
    exact List.mem_append_left _ List.mem_cons_self
  have hborder := visibleWidth_le_widest hmem
  rw [visibleWidth_border] at hborder
  have hline : visibleWidth line ≤ boxWidth lines contentWidth :=
    Nat.le_trans (visibleWidth_le_widest h) (Nat.le_max_right _ _)
  omega

/-- The rows of a box that a property holds of: its border, and the rows of its first lines. -/
theorem forall_mem_take_card {P : Text → Prop} {theme : Theme} (hborder : P (border lines contentWidth))
    (m : Nat) :
    (∀ b ∈ (card lines contentWidth (.blank theme)).take m, P b) ↔
      ∀ i line, lines[i]? = some line → i + 1 < m → P (boxed lines contentWidth line) := by
  rw [card_blank]
  constructor
  · intro h i line hline hi
    obtain ⟨hlt, rfl⟩ := List.getElem?_eq_some_iff.1 hline
    refine h _ (List.mem_of_getElem? (i := i + 1) ?_)
    rw [List.getElem?_take_of_lt hi, List.cons_append, List.getElem?_cons_succ,
      List.getElem?_append_left (by simpa using hlt), List.getElem?_map, hline]
    rfl
  · -- the rows are counted from the border above: row `i + 1` is that of line `i`
    intro h b hb
    obtain ⟨j, hj⟩ := List.mem_iff_getElem?.1 hb
    have hjm : j < m := by
      rcases Nat.lt_or_ge j m with hlt | hge
      · exact hlt
      · rw [List.getElem?_take_eq_none hge] at hj
        exact nomatch hj
    rw [List.getElem?_take_of_lt hjm, List.cons_append] at hj
    cases j with
    | zero =>
      cases hj
      exact hborder
    | succ i =>
      rw [List.getElem?_cons_succ] at hj
      rcases Nat.lt_or_ge i (lines.map (boxed lines contentWidth)).length with hlt | hge
      · rw [List.getElem?_append_left hlt, List.getElem?_map] at hj
        obtain ⟨line, hline, rfl⟩ := Option.map_eq_some_iff.1 hj
        exact h i line hline hjm
      · rw [List.getElem?_append_right hge] at hj
        have hlast : b = border lines contentWidth := by
          have hmem := List.mem_of_getElem? hj
          exact List.mem_singleton.1 hmem
        rw [hlast]
        exact hborder

/-- **Without colour a screen is exact** unless one of the lines on it is torn and leaves room in its
    row. -/
theorem exact_iff_of_blank (theme : Theme) (lines : List Text) (contentWidth width height : Nat) :
    (∀ row ∈ fill (center (card lines contentWidth (.blank theme)) width height) width height
        (StyleSet.blank theme).base (StyleSet.blank theme).reset, visibleWidth row = max width 1) ↔
      ∀ i line, lines[i]? = some line → i + 1 < max height 1 → IsTorn line →
        max width 1 ≤ visibleWidth line + 2 := by
  show (∀ row ∈ fill (center (card lines contentWidth (.blank theme)) width height) width height [] [],
    visibleWidth row = max width 1) ↔ _
  have hborder : Complete (border lines contentWidth) ∨ max width 1 ≤
      columnsLeft (card lines contentWidth (.blank theme)) width +
        visibleWidth (border lines contentWidth) :=
    Or.inl (complete_of_isPlain (isPlain_border lines contentWidth))
  rw [exact_iff_of_unstyled (length_center_le _ width height), forall_mem_center_iff,
    forall_mem_take_card hborder]
  have hlength : (card lines contentWidth (.blank theme)).length = lines.length + 2 := by
    rw [card_blank]
    simp
  -- a line is on the screen if there is room for it below the border
  have hroom : ∀ i, i < lines.length →
      (i + 1 < max height 1 - rowsAbove (card lines contentWidth (.blank theme)) height ↔
        i + 1 < max height 1) := by
    intro i hi
    unfold rowsAbove
    rw [hlength]
    omega
  -- and a torn one fills its row if it does so without being moved
  have hwide : ∀ line ∈ lines,
      (max width 1 ≤ columnsLeft (card lines contentWidth (.blank theme)) width +
          (visibleWidth line + 2) ↔ max width 1 ≤ visibleWidth line + 2) := by
    intro line hline
    have hbox := visibleWidth_add_le_widest contentWidth theme hline
    unfold columnsLeft
    omega
  constructor
  · intro h i line hline hi htorn
    obtain ⟨hlt, -⟩ := List.getElem?_eq_some_iff.1 hline
    rcases h i line hline ((hroom i hlt).2 hi) with hcomplete | hfull
    · exact absurd htorn ((complete_boxed_iff line).1 hcomplete)
    · rw [visibleWidth_boxed_of_isTorn htorn] at hfull
      exact (hwide line (List.mem_of_getElem? hline)).1 hfull
  · intro h i line hline hi
    obtain ⟨hlt, -⟩ := List.getElem?_eq_some_iff.1 hline
    by_cases htorn : IsTorn line
    · have hfull := h i line hline ((hroom i hlt).1 hi) htorn
      rw [visibleWidth_boxed_of_isTorn htorn]
      exact Or.inr ((hwide line (List.mem_of_getElem? hline)).2 hfull)
    · exact Or.inl ((complete_boxed_iff line).2 htorn)

end

end TunnelBoard
