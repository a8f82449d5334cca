import TunnelBoard.Proofs.Frame.Reapplied
import TunnelBoard.Proofs.Style.TabStrip
import TunnelBoard.Proofs.Text.Clipping
/-
  From lines to a screen, step by step.

  Each step is measured on its own, for lines that are complete: a box is wider than its lines by its
  margin and border (`read_boxRow`), a box that fits is placed as it is (`center_of_fits`), and a row
  of the screen shows what stands in it, filled up with spaces (`strip_fill_row`).  Complete rows go
  in and complete rows come out, so the steps can follow one another.

  Completeness is what makes widths add up: a sequence that a line leaves open would swallow the
  spaces and the edge behind it.  It is asked of the lines once, and every step hands it on.
-/

namespace TunnelBoard

/-! ## Filling up -/

/-- Padding shows the line and then spaces. -/
theorem strip_padRight {s : Text} (h : Complete s) (width : Nat) :
    strip (padRight s width) = strip s ++ spaces (width - visibleWidth s) := by
  unfold padRight
  rw [strip_append h, strip_of_isPlain (isPlain_spaces _)]

/-- Padding leaves no sequence open. -/
theorem complete_padRight {s : Text} (h : Complete s) (width : Nat) : Complete (padRight s width) :=
  h.append (complete_of_isPlain (isPlain_spaces _))

/-! ## The box

Each row of a box shows its line between margin and edges.  As lines and styles are complete, what a
row shows is put together from what its parts show. -/

section

variable {styles : StyleSet} {line : Text}

/-- The border above and below a box. -/
def boxBorder (styles : StyleSet) (inner : Nat) : Text :=
  styles.paint .frame ('+' :: List.replicate (inner + 2) '-' ++ ['+'])

/-- A row of a box. -/
def boxRow (styles : StyleSet) (inner : Nat) (line : Text) : Text :=
  styles.paint .frame ['|'] ++ ' ' :: padRight (reapplyBase line styles.base) inner ++
    ' ' :: styles.paint .frame ['|']

/-- A box is a row for each line, between two borders. -/
theorem card_eq (lines : List Text) (contentWidth : Nat) (styles : StyleSet) :
    card lines contentWidth styles =
      boxBorder styles (boxWidth lines contentWidth) ::
        lines.map (boxRow styles (boxWidth lines contentWidth)) ++
        [boxBorder styles (boxWidth lines contentWidth)] := rfl

/-- A border is complete, and wider than the box inside it by margin and corners. -/
theorem read_boxBorder (hs : styles.IsUnseen) (inner : Nat) :
    Complete (boxBorder styles inner) ∧ visibleWidth (boxBorder styles inner) = inner + 4 := by
  have hplain : IsPlain ('+' :: List.replicate (inner + 2) '-' ++ ['+']) :=
    .append (.cons (by decide) (.replicate _ (by decide))) (by decide)
  have hcomplete := complete_of_isPlain hplain
  refine ⟨hs.complete_paint .frame hcomplete, ?_⟩
  rw [boxBorder, hs.visibleWidth_paint .frame hcomplete, visibleWidth_of_isPlain hplain]
  simp

/-- Between its edges, a row shows what the line shows. -/
theorem read_boxRow (hs : styles.IsUnseen) (inner : Nat) (h : Complete line) :
    Complete (boxRow styles inner line) ∧
      strip (boxRow styles inner line) =
        ['|', ' '] ++ strip line ++ spaces (inner - visibleWidth line) ++ [' ', '|'] := by
  -- the base style that is set again in the line shows nothing
  obtain ⟨hafter, hshown⟩ := read_reapplyBase hs.base line .plain
  have hbody : Complete (reapplyBase line styles.base) := hafter.trans h
  have hsame : strip (reapplyBase line styles.base) = strip line := hshown
  have hedge : Complete (styles.paint .frame ['|']) := hs.complete_paint .frame rfl
  have hbar : strip (styles.paint .frame ['|']) = ['|'] := hs.strip_paint .frame rfl
  have hspace : Complete [' '] := rfl
  have hpad := complete_padRight hbody inner
  have hrow : boxRow styles inner line = styles.paint .frame ['|'] ++
      ([' '] ++ (padRight (reapplyBase line styles.base) inner ++
        ([' '] ++ styles.paint .frame ['|']))) := by
    simp [boxRow]
  rw [hrow]
  refine ⟨hedge.append (hspace.append (hpad.append (hspace.append hedge))), ?_⟩
  rw [strip_append hedge, strip_append hspace, strip_append hpad, strip_append hspace, hbar,
    strip_padRight hbody, visibleWidth, hsame]
  simp [strip, Scan.shown, Scan.shows, visibleWidth, esc]

/-- A row whose line fits is as wide as the border. -/
theorem visibleWidth_boxRow (hs : styles.IsUnseen) {inner : Nat} (h : Complete line)
    (hfits : visibleWidth line ≤ inner) : visibleWidth (boxRow styles inner line) = inner + 4 := by
  rw [visibleWidth, (read_boxRow hs inner h).2]
  have hlength : (strip line).length = visibleWidth line := rfl
  simp only [List.length_append, List.length_cons, List.length_nil, spaces, List.length_replicate]
  omega

end

/-- The rows of a box, and what is shown of them. -/
theorem read_card {styles : StyleSet} (hs : styles.IsUnseen) {lines : List Text}
    (h : ∀ l ∈ lines, Complete l) (contentWidth : Nat) :
    ∀ row ∈ card lines contentWidth styles,
      Complete row ∧ visibleWidth row = boxWidth lines contentWidth + 4 := by
  intro row hrow
  have hborder := read_boxBorder hs (boxWidth lines contentWidth)
  rw [card_eq] at hrow
  rcases List.mem_append.1 hrow with hrow | hrow
  · rcases List.mem_cons.1 hrow with rfl | hrow
    · exact hborder
    · obtain ⟨line, hline, rfl⟩ := List.mem_map.1 hrow
      have hfits : visibleWidth line ≤ boxWidth lines contentWidth :=
        Nat.le_trans (visibleWidth_le_widest hline) (Nat.le_max_right _ _)
      exact ⟨(read_boxRow hs _ (h line hline)).1, visibleWidth_boxRow hs (h line hline) hfits⟩
  · rw [List.mem_singleton.1 hrow]
    exact hborder

/-- Each line has its row in the box, one below the border. -/
theorem getElem?_card {lines : List Text} {i : Nat} {line : Text} (h : lines[i]? = some line)
    (contentWidth : Nat) (styles : StyleSet) :
    (card lines contentWidth styles)[i + 1]? = some (boxRow styles (boxWidth lines contentWidth) line) := by
  have hrow : (lines.map (boxRow styles (boxWidth lines contentWidth)))[i]? =
      some (boxRow styles (boxWidth lines contentWidth) line) := by
    rw [List.getElem?_map, h]
    rfl
  have hlt := (List.getElem?_eq_some_iff.1 hrow).1
  rw [card_eq, List.cons_append, List.getElem?_cons_succ, List.getElem?_append_left hlt]
  exact hrow

/-! ## Placing it -/

/-- Nothing that is placed on a screen is wider than the screen. -/
theorem visibleWidth_le_of_mem_center (lines : List Text) (width height : Nat) :
    ∀ row ∈ center lines width height, visibleWidth row ≤ max width 1 := by
  intro row hrow
  have hleft : columnsLeft lines width ≤ max width 1 := by
    unfold columnsLeft
    omega
  rw [center_eq] at hrow
  rcases List.mem_append.1 hrow with hrow | hrow
  · rw [List.eq_of_mem_replicate hrow]
    exact Nat.zero_le _
  · obtain ⟨l, -, rfl⟩ := List.mem_map.1 hrow
    have hspaces : Complete (spaces (columnsLeft lines width)) := complete_of_isPlain (isPlain_spaces _)
    rw [visibleWidth_append hspaces, visibleWidth_clip, visibleWidth_of_isPlain (isPlain_spaces _), spaces,
      List.length_replicate]
    omega

/-- Rows that fit are placed whole, one below the other, behind the same number of spaces. -/
theorem center_of_fits {lines : List Text} {width height : Nat} (hrows : lines.length ≤ max height 1)
    (hcolumns : widest lines ≤ max width 1) :
    center lines width height =
      List.replicate (rowsAbove lines height) [] ++
        lines.map fun l => spaces (columnsLeft lines width) ++ l := by
  -- no row is cut off below, and none at its end
  have htake : lines.take (max height 1 - rowsAbove lines height) = lines := by
    refine List.take_of_length_le ?_
    unfold rowsAbove
    omega
  rw [center_eq, htake]
  congr 1
  refine List.map_congr_left fun l hl => ?_
  have hwidest : visibleWidth l ≤ widest lines := visibleWidth_le_widest hl
  have hfits : visibleWidth l ≤ max width 1 - columnsLeft lines width := by
    unfold columnsLeft
    omega
  rw [clip_of_le hfits]

/-! ## Filling the screen -/

/-- A row of a screen shows what stands in it, if that fits, and spaces. -/
theorem strip_fill_row {lines : List Text} {base reset : Text} (hbase : IsUnseen base)
    (hreset : IsUnseen reset) {width height i : Nat} {line : Text} (hline : lines[i]? = some line)
    (hcomplete : Complete line) (hi : i < max height 1) (hfits : visibleWidth line ≤ max width 1) :
    ∃ row, (fill lines width height base reset)[i]? = some row ∧
      strip row = strip line ++ spaces (max width 1 - visibleWidth line) := by
  refine ⟨base ++ padRight line (max width 1) ++ reset, ?_, ?_⟩
  · have hrow : ((lines.take (max height 1)).map fun l =>
        base ++ padRight (clip l (max width 1)) (max width 1) ++ reset)[i]? =
          some (base ++ padRight line (max width 1) ++ reset) := by
      rw [List.getElem?_map, List.getElem?_take_of_lt hi, hline, Option.map_some, clip_of_le hfits]
    have hlt := (List.getElem?_eq_some_iff.1 hrow).1
    unfold fill
    rw [List.getElem?_append_left hlt]
    exact hrow
  · have hpad := complete_padRight hcomplete (max width 1)
    rw [strip_append (hbase.complete.append hpad), strip_append hbase.complete, hbase.strip, hreset.strip,
      strip_padRight hcomplete, List.nil_append, List.append_nil]

/-! ## All of it -/

/-- **A frame is put together exactly, and loses nothing that fits**, for lines that are complete, any style
    set and any sizes.  The box has two rows more than lines, is wider than it must be by its margin and
    border, and shows each line between its edges.  Placed on a screen it is never too large for it; if it
    fits, all rows of it stand there, with margins that differ by one at most.  A filled screen has the size
    of the terminal, and shows all of each line that fits. -/
theorem frame_assembled (theme : Theme) (colour : Bool) (lines : List Text)
    (hlines : ∀ l ∈ lines, Complete l) (contentWidth width height : Nat) :
    let styles := StyleSet.build theme colour
    let inner := max (max contentWidth 1) (widest lines)
    ((card lines contentWidth styles).length = lines.length + 2 ∧
      (∀ row ∈ card lines contentWidth styles, Complete row ∧ visibleWidth row = inner + 4) ∧
      ∀ i line, lines[i]? = some line →
        ∃ row, (card lines contentWidth styles)[i + 1]? = some row ∧
          strip row = ['|', ' '] ++ strip line ++ spaces (inner - visibleWidth line) ++ [' ', '|']) ∧
    ((center lines width height).length ≤ max height 1 ∧
      (∀ row ∈ center lines width height, visibleWidth row ≤ max width 1) ∧
      (lines.length ≤ max height 1 → widest lines ≤ max width 1 →
        ∃ above below left right,
          center lines width height =
            List.replicate above [] ++ lines.map (fun l => spaces left ++ l) ∧
          above + lines.length + below = max height 1 ∧ above ≤ below ∧ below ≤ above + 1 ∧
          left + widest lines + right = max width 1 ∧ left ≤ right ∧ right ≤ left + 1)) ∧
    ∀ base reset, IsUnseen base → IsUnseen reset →
      (fill lines width height base reset).length = max height 1 ∧
      (∀ row ∈ fill lines width height base reset, visibleWidth row = max width 1) ∧
      ∀ i line, lines[i]? = some line → i < max height 1 → visibleWidth line ≤ max width 1 →
        ∃ row, (fill lines width height base reset)[i]? = some row ∧
          strip row = strip line ++ spaces (max width 1 - visibleWidth line) := by
  intro styles inner
  have hs : styles.IsUnseen := StyleSet.isUnseen_build theme colour
  -- the box, then the box in the middle of a screen, then the filled screen
  refine ⟨⟨?_, read_card hs hlines contentWidth, ?_⟩, ⟨length_center_le lines width height,
    visibleWidth_le_of_mem_center lines width height, ?_⟩, ?_⟩
  · rw [card_eq]
    simp
  · intro i line hline
    have hcomplete := hlines line (List.mem_of_getElem? hline)
    exact ⟨_, getElem?_card hline contentWidth styles, (read_boxRow hs _ hcomplete).2⟩
  · intro hrows hcolumns
    refine ⟨rowsAbove lines height, max height 1 - lines.length - rowsAbove lines height,
      columnsLeft lines width, max width 1 - widest lines - columnsLeft lines width,
      center_of_fits hrows hcolumns, ?_⟩
    unfold rowsAbove columnsLeft
    omega
  · intro base reset hbase hreset
    refine ⟨length_fill lines width height base reset,
      exact_of_complete hbase hreset hlines width height, ?_⟩
    intro i line hline hi hfits
    exact strip_fill_row hbase hreset hline (hlines line (List.mem_of_getElem? hline)) hi hfits

/-- Two lines, one of them bold, in a box of their own on a screen that has room for it, and on one that has
    none at all. -/
theorem frame_assembled_with_colour :
    (∀ row ∈ card ["\x1b[1mhi\x1b[0m".toList, "there".toList] 3 (StyleSet.build .forest true),
      visibleWidth row = 9) ∧
    center ["\x1b[1mhi\x1b[0m".toList, "there".toList] 8 5 =
      [[], " \x1b[1mhi\x1b[0m".toList, " there".toList] ∧
    (fill ["\x1b[1mhi\x1b[0m".toList, "there".toList] 0 0 (StyleSet.build .forest true).base
      (StyleSet.build .forest true).reset).length = 1 := by
  have hlines : ∀ l ∈ ["\x1b[1mhi\x1b[0m".toList, "there".toList], Complete l := by decide
  obtain ⟨⟨-, hcard, -⟩, ⟨-, -, hcenter⟩, -⟩ := frame_assembled .forest true _ hlines 3 8 5
  obtain ⟨-, -, hfill⟩ := frame_assembled .forest true _ hlines 3 0 0
  refine ⟨fun row hrow => (hcard row hrow).2, ?_, ?_⟩
  · obtain ⟨above, below, left, right, heq, hrows, hrows', hrows'', hcolumns, hcolumns', hcolumns''⟩ :=
      hcenter (by decide) (by decide)
    have hwidest : widest ["\x1b[1mhi\x1b[0m".toList, "there".toList] = 5 := by decide
    rw [hwidest] at hcolumns
    obtain rfl : above = 1 := by
      simp only [List.length_cons, List.length_nil] at hrows
      omega
    obtain rfl : left = 1 := by omega
    rw [heq]
    decide
  · have hs := StyleSet.isUnseen_build .forest true
    exact (hfill _ _ hs.base (StyleSet.isUnseen_reset .forest)).1

end TunnelBoard
