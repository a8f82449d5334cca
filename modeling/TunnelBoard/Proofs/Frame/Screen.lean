import TunnelBoard.Frame.Card
import TunnelBoard.Proofs.Text.Fitting
/-
  The size of a screen.

  A screen has as many rows as the terminal, and a row has as many columns if the reader is between
  sequences behind what it is filled with.  With colour this is always so, for every row of the box
  ends in the base style.  Without colour it depends on the line in the row: an unfinished escape or
  control sequence ends at the border of the box at the latest, but an unfinished operating-system
  command swallows the border and the spaces behind it (`exact_iff_of_blank`).

  Rows are measured here for any content, complete or not; what boxes make of it is left to the next
  module.
-/

namespace TunnelBoard

/-! ## The widest row -/

/-- No number is larger than the largest. -/
theorem le_foldl_max (ns : List Nat) : ∀ m : Nat, m ≤ ns.foldl max m ∧ ∀ n ∈ ns, n ≤ ns.foldl max m := by
  induction ns with
  | nil => exact fun m => ⟨Nat.le_refl m, fun n hn => absurd hn List.not_mem_nil⟩
  | cons k ns ih =>
    intro m
    obtain ⟨hfirst, hrest⟩ := ih (max m k)
    refine ⟨Nat.le_trans (Nat.le_max_left m k) hfirst, fun n hn => ?_⟩
    rcases List.mem_cons.1 hn with rfl | hn
    · exact Nat.le_trans (Nat.le_max_right m n) hfirst
    · exact hrest n hn

/-- No line is wider than the widest. -/
theorem visibleWidth_le_widest {lines : List Text} {l : Text} (h : l ∈ lines) :
    visibleWidth l ≤ widest lines :=
  (le_foldl_max _ 0).2 _ (List.mem_map_of_mem h)

/-! ## The number of rows -/

/-- What is placed on a screen has no more rows than the screen. -/
theorem length_center_le (lines : List Text) (width height : Nat) :
    (center lines width height).length ≤ max height 1 := by
  simp only [center, List.length_append, List.length_replicate, List.length_map, List.length_take]
  omega

/-- A screen has as many rows as the terminal, and one at least. -/
theorem length_fill (lines : List Text) (width height : Nat) (base reset : Text) :
    (fill lines width height base reset).length = max height 1 := by
  simp only [fill, List.length_append, List.length_replicate, List.length_map, List.length_take]
  omega

/-! ## The rows -/

/-- A style, or nothing: not shown, and complete. -/
structure IsUnseen (s : Text) : Prop where
  complete : Complete s
  strip : strip s = []

/-- The empty text is not seen. -/
theorem IsUnseen.nil : IsUnseen [] := ⟨rfl, rfl⟩

/-- A row is as wide as the screen when what stands in it is complete. -/
theorem visibleWidth_row {base reset l : Text} (hbase : IsUnseen base) (hreset : IsUnseen reset)
    (hl : Complete l) (width : Nat) :
    visibleWidth (base ++ padRight (clip l width) width ++ reset) = width := by
  have hclip : Complete (clip l width) := by
    unfold Complete
    rw [after_clip]
    exact hl
  have hfits : visibleWidth (clip l width) ≤ width := by
    rw [visibleWidth_clip]
    exact Nat.min_le_right _ _
  have hpad : visibleWidth (padRight (clip l width) width) = width :=
    (visibleWidth_padRight_eq_iff hfits).2 (Or.inl hclip)
  have hfilled : Complete (padRight (clip l width) width) :=
    hclip.append (complete_of_isPlain (isPlain_spaces _))
  rw [visibleWidth_append (hbase.complete.append hfilled), visibleWidth_append hbase.complete, hpad,
    visibleWidth, visibleWidth, hbase.strip, hreset.strip]
  simp

/-- Without styles, a row is as wide as the screen exactly if what stands in it is complete or fills
    it. -/
theorem visibleWidth_blank_row (l : Text) (width : Nat) :
    visibleWidth ([] ++ padRight (clip l width) width ++ []) = width ↔
      Complete l ∨ width ≤ visibleWidth l := by
  have hfits : visibleWidth (clip l width) ≤ width := by
    rw [visibleWidth_clip]
    exact Nat.min_le_right _ _
  rw [List.nil_append, List.append_nil, visibleWidth_padRight_eq_iff hfits, visibleWidth_clip, Complete,
    after_clip, Complete]
  have hmin : min (visibleWidth l) width = width ↔ width ≤ visibleWidth l := by omega
  rw [hmin]

/-- An empty row of a screen is as wide as the screen. -/
theorem visibleWidth_empty_row {base reset : Text} (hbase : IsUnseen base) (hreset : IsUnseen reset)
    (width : Nat) : visibleWidth (base ++ spaces width ++ reset) = width := by
  have hcomplete : Complete (spaces width) := complete_of_isPlain (isPlain_spaces width)
  rw [visibleWidth_append (hbase.complete.append hcomplete), visibleWidth_append hbase.complete,
    visibleWidth_of_isPlain (isPlain_spaces width), visibleWidth, visibleWidth, hbase.strip,
    hreset.strip]
  simp [spaces]

/-- Every row of a screen is as wide as the screen when all that is put there is complete. -/
theorem exact_of_complete {lines : List Text} {base reset : Text} (hbase : IsUnseen base)
    (hreset : IsUnseen reset) (h : ∀ l ∈ lines, Complete l) (width height : Nat) :
    ∀ row ∈ fill lines width height base reset, visibleWidth row = max width 1 := by
  intro row hrow
  unfold fill at hrow
  rcases List.mem_append.1 hrow with hrow | hrow
  · obtain ⟨l, hl, rfl⟩ := List.mem_map.1 hrow
    exact visibleWidth_row hbase hreset (h l (List.mem_of_mem_take hl)) _
  · rw [List.eq_of_mem_replicate hrow]
    exact visibleWidth_empty_row hbase hreset _

/-- Without styles, the rows of a screen are as wide as the screen exactly if each of those that are put
    there is complete or fills its row. -/
theorem exact_iff_of_unstyled {lines : List Text} {width height : Nat}
    (hlength : lines.length ≤ max height 1) :
    (∀ row ∈ fill lines width height [] [], visibleWidth row = max width 1) ↔
      ∀ l ∈ lines, Complete l ∨ max width 1 ≤ visibleWidth l := by
  have htake : lines.take (max height 1) = lines := List.take_of_length_le hlength
  unfold fill
  simp only [htake, List.mem_append, List.mem_map]
  constructor
  · intro h l hl
    exact (visibleWidth_blank_row l _).1 (h _ (Or.inl ⟨l, hl, rfl⟩))
  · rintro h row (⟨l, hl, rfl⟩ | hrow)
    · exact (visibleWidth_blank_row l _).2 (h l hl)
    · rw [List.eq_of_mem_replicate hrow]
      exact visibleWidth_empty_row .nil .nil _

/-! ## Placing the box -/

/-- How many rows are left free above a box. -/
def rowsAbove (lines : List Text) (height : Nat) : Nat := (max height 1 - lines.length) / 2

/-- How many columns are left free before a box. -/
def columnsLeft (lines : List Text) (width : Nat) : Nat := (max width 1 - widest lines) / 2

/-- A screen with content has empty rows above, and each row of it behind as many spaces. -/
theorem center_eq (lines : List Text) (width height : Nat) :
    center lines width height = List.replicate (rowsAbove lines height) [] ++
      (lines.take (max height 1 - rowsAbove lines height)).map fun l =>
        spaces (columnsLeft lines width) ++ clip l (max width 1 - columnsLeft lines width) := rfl

/-- A row that is put on a screen is complete when the row of the box is. -/
theorem complete_placed_iff (b : Text) (left width : Nat) :
    Complete (spaces left ++ clip b width) ↔ Complete b := by
  have hspaces : Complete (spaces left) := complete_of_isPlain (isPlain_spaces left)
  unfold Complete at *
  rw [Scan.after_append, hspaces, after_clip]

/-- What is put on a screen is complete when the rows of the box are. -/
theorem complete_of_mem_center {lines : List Text} (h : ∀ l ∈ lines, Complete l) (width height : Nat) :
    ∀ l ∈ center lines width height, Complete l := by
  intro l hl
  rw [center_eq] at hl
  rcases List.mem_append.1 hl with hl | hl
  · rw [List.eq_of_mem_replicate hl]
    rfl
  · obtain ⟨b, hb, rfl⟩ := List.mem_map.1 hl
    exact (complete_placed_iff b _ _).2 (h b (List.mem_of_mem_take hb))

/-- Whether a row that is put on a screen fills its row, in terms of the row of the box. -/
theorem le_visibleWidth_placed_iff (b : Text) {width left : Nat} (hleft : left ≤ width) :
    width ≤ visibleWidth (spaces left ++ clip b (width - left)) ↔ width ≤ left + visibleWidth b := by
  have hspaces : Complete (spaces left) := complete_of_isPlain (isPlain_spaces left)
  rw [visibleWidth_append hspaces, visibleWidth_clip, visibleWidth_of_isPlain (isPlain_spaces left),
    spaces, List.length_replicate]
  omega

/-- The rows that are put on a screen, in terms of those rows of the box for which there is room.  The
    empty rows above it are complete. -/
theorem forall_mem_center_iff {lines : List Text} {width height : Nat} :
    (∀ l ∈ center lines width height, Complete l ∨ max width 1 ≤ visibleWidth l) ↔
      ∀ b ∈ lines.take (max height 1 - rowsAbove lines height),
        Complete b ∨ max width 1 ≤ columnsLeft lines width + visibleWidth b := by
  have hleft : columnsLeft lines width ≤ max width 1 := by
    unfold columnsLeft
    omega
  -- a row of the box behind its margin, clipped to what is left of the screen
  have hrow : ∀ b : Text,
      (Complete (spaces (columnsLeft lines width) ++ clip b (max width 1 - columnsLeft lines width)) ∨
        max width 1 ≤ visibleWidth
          (spaces (columnsLeft lines width) ++ clip b (max width 1 - columnsLeft lines width))) ↔
      Complete b ∨ max width 1 ≤ columnsLeft lines width + visibleWidth b := by
    intro b
    rw [complete_placed_iff, le_visibleWidth_placed_iff b hleft]
  rw [center_eq]
  constructor
  · intro h b hb
    exact (hrow b).1 (h _ (List.mem_append_right _ (List.mem_map.2 ⟨b, hb, rfl⟩)))
  · intro h l hl
    rcases List.mem_append.1 hl with hl | hl
    · rw [List.eq_of_mem_replicate hl]
      exact Or.inl rfl
    · obtain ⟨b, hb, rfl⟩ := List.mem_map.1 hl
      exact (hrow b).2 (h b hb)

/-! ## A box as high as the screen -/

/-- A row of a screen with a row of the box in it. -/
def placed (width left : Nat) (base reset b : Text) : Text :=
  base ++ padRight (clip (spaces left ++ clip b (width - left)) width) width ++ reset

/-- Of a box that is as high as the screen, each row is on the screen, and there are no others. -/
theorem fill_center_of_length {lines : List Text} {height : Nat} (h : lines.length = max height 1)
    (width : Nat) (base reset : Text) :
    fill (center lines width height) width height base reset =
      lines.map (placed (max width 1) (columnsLeft lines width) base reset) := by
  have habove : rowsAbove lines height = 0 := by
    unfold rowsAbove
    omega
  have hcenter : center lines width height = lines.map fun l =>
      spaces (columnsLeft lines width) ++ clip l (max width 1 - columnsLeft lines width) := by
    rw [center_eq, habove, Nat.sub_zero, List.take_of_length_le (Nat.le_of_eq h)]
    rfl
  unfold fill
  dsimp only
  rw [hcenter, List.take_of_length_le (by rw [List.length_map]; exact Nat.le_of_eq h)]
  simp only [List.map_map, List.length_map, h, Nat.sub_self, List.replicate_zero, List.append_nil]
  rfl

end TunnelBoard
