import Mathlib.Algebra.GroupWithZero.Nat
import TunnelBoard.Proofs.Frame.Box
import TunnelBoard.Style.TabStrip
/-
  The width of a strip of tabs.

  Painting shows nothing of its own (`strip_paint`), so the strip is as wide as its labels with the
  spaces around them and the bars between them, filled up.  That holds of any styles whose sequences
  are not seen (`StyleSet.IsUnseen`), and those of every theme are such styles, with colour and
  without.

  When there is no room for all tabs, only the active one is shown, fitted into the room that the
  *bytes* of its label would take, and the spaces behind it take the rest of the width.  Bytes are at
  least as many as characters, but nothing depends on it: whatever the room is, the fitted label takes
  exactly as much of the width as the spaces leave (`visibleWidth_narrow`).  An index without a label
  is no exception, since it stands for an empty label.
-/

namespace TunnelBoard

/-! ## Painted text -/

namespace StyleSet

/-- Whether nothing of the styles is shown. -/
structure IsUnseen (s : StyleSet) : Prop where
  opening : ∀ role, TunnelBoard.IsUnseen (s.opening role)
  base : TunnelBoard.IsUnseen s.base

/-- A sequence that sets colours is complete, and nothing of it is seen. -/
theorem isUnseen_attributes {params : Text} (h : IsParams params) :
    TunnelBoard.IsUnseen (attributes params) :=
  ⟨complete_attributes h, strip_attributes h⟩

/-- A bold colour, or one on a background of its own. -/
theorem isParams_bold {params : Text} (h : IsParams params) : IsParams ("1;".toList ++ params) :=
  IsParams.append (by simp [IsParams]) h

/-- The styles of a theme are not seen. -/
theorem isUnseen_build (theme : Theme) (colour : Bool) : (build theme colour).IsUnseen := by
  cases colour with
  | false =>
    refine ⟨fun role => ?_, .nil⟩
    cases role with
    | text | muted | brand | accent | active | frame => exact .nil
  | true =>
    refine ⟨fun role => ?_, isUnseen_base theme⟩
    cases role with
    | text | muted | frame => exact isUnseen_attributes (isParams_foreground _)
    | brand | accent => exact isUnseen_attributes (isParams_bold (isParams_foreground _))
    | active =>
      -- the active tab is bold on a background, so its parameters are three lists with a semicolon
      -- between them
      have hparams : IsParams (background theme.palette.activeBackground ++
          ';' :: foreground theme.palette.activeText) :=
        (isParams_background _).append
          (IsParams.append (s := [';']) (by simp [IsParams]) (isParams_foreground _))
      have hbold := isUnseen_attributes (isParams_bold hparams)
      rw [← List.append_assoc] at hbold
      exact hbold

variable {styles : StyleSet} {text : Text}

/-- Painted text is complete if the text is. -/
theorem IsUnseen.complete_paint (h : styles.IsUnseen) (role : Role) (ht : Complete text) :
    Complete (styles.paint role text) := by
  unfold paint
  split
  · exact ht
  · exact ((h.opening role).complete.append ht).append h.base.complete

/-- Painted text shows what the text shows. -/
theorem IsUnseen.strip_paint (h : styles.IsUnseen) (role : Role) (ht : Complete text) :
    strip (styles.paint role text) = strip text := by
  unfold paint
  split
  · rfl
  · rw [strip_append ((h.opening role).complete.append ht), strip_append (h.opening role).complete,
      (h.opening role).strip, h.base.strip, List.nil_append, List.append_nil]

/-- Painted text is as wide as the text. -/
theorem IsUnseen.visibleWidth_paint (h : styles.IsUnseen) (role : Role) (ht : Complete text) :
    visibleWidth (styles.paint role text) = visibleWidth text := by
  rw [visibleWidth, h.strip_paint role ht, visibleWidth]

/-- A highlighted row is as wide as it is to be. -/
theorem IsUnseen.visibleWidth_activeRow (h : styles.IsUnseen) (ht : Complete text) (width : Nat) :
    visibleWidth (styles.activeRow text width) = width := by
  unfold activeRow
  rw [h.visibleWidth_paint .active (complete_fit ht width)]
  exact visibleWidth_fit ht width

theorem IsUnseen.complete_activeRow (h : styles.IsUnseen) (ht : Complete text) (width : Nat) :
    Complete (styles.activeRow text width) :=
  h.complete_paint .active (complete_fit ht width)

end StyleSet

/-! ## Pieces side by side -/

section

variable {sep : Text} {pieces : List Text}

/-- Complete pieces with a complete separator between them are complete. -/
theorem complete_joinWith (hsep : Complete sep) (h : ∀ piece ∈ pieces, Complete piece) :
    Complete (joinWith sep pieces) := by
  induction pieces with
  | nil => rfl
  | cons piece rest ih =>
    have hpiece := h piece List.mem_cons_self
    have hrest := ih fun p hp => h p (List.mem_cons_of_mem _ hp)
    cases rest with
    | nil => exact hpiece
    | cons => exact (hpiece.append hsep).append hrest

/-- The width of pieces side by side is that of all the pieces and of the separators between them.
    This needs complete pieces: an open sequence would swallow what stands behind it. -/
theorem visibleWidth_joinWith (hsep : Complete sep) (h : ∀ piece ∈ pieces, Complete piece) :
    visibleWidth (joinWith sep pieces) =
      (pieces.map visibleWidth).sum + (pieces.length - 1) * visibleWidth sep := by
  induction pieces with
  | nil => simp [joinWith, visibleWidth, strip]
  | cons piece rest ih =>
    have hpiece := h piece List.mem_cons_self
    have hrest := ih fun p hp => h p (List.mem_cons_of_mem _ hp)
    cases rest with
    | nil => simp [joinWith]
    | cons next rest =>
      -- the first piece, one separator, and the others
      have hwidth : visibleWidth (joinWith sep (piece :: next :: rest)) =
          visibleWidth piece + visibleWidth sep + visibleWidth (joinWith sep (next :: rest)) := by
        show visibleWidth (piece ++ sep ++ joinWith sep (next :: rest)) = _
        rw [visibleWidth_append (hpiece.append hsep), visibleWidth_append hpiece]
      have hcount : (piece :: next :: rest).length - 1 = (next :: rest).length - 1 + 1 := by
        simp only [List.length_cons, Nat.add_sub_cancel]
      have hsum : ((piece :: next :: rest).map visibleWidth).sum =
          visibleWidth piece + ((next :: rest).map visibleWidth).sum := List.sum_cons
      rw [hwidth, hrest, hcount, hsum, Nat.add_mul, Nat.one_mul]
      omega

end

/-! ## Strips -/

theorem complete_tabCell {label : Text} (h : Complete label) : Complete (tabCell label) := by
  have hspace : Complete [' '] := rfl
  exact (hspace.append h).append hspace

namespace TabStrip

variable {styles : StyleSet} {labels : List Text}

/-- There is a tab for each label. -/
theorem length_cells (styles : StyleSet) (active index : Nat) (labels : List Text) :
    (cells styles active index labels).length = labels.length := by
  induction labels generalizing index with
  | nil => rfl
  | cons label rest ih => exact congrArg Nat.succ (ih (index + 1))

/-- The tabs are complete, and as wide as their labels with the spaces around them. -/
theorem cells_spec (hs : styles.IsUnseen) (h : ∀ label ∈ labels, Complete label)
    (active index : Nat) :
    (∀ cell ∈ cells styles active index labels, Complete cell) ∧
      (cells styles active index labels).map visibleWidth =
        labels.map fun label => visibleWidth (tabCell label) := by
  induction labels generalizing index with
  | nil => exact ⟨fun cell hcell => absurd hcell List.not_mem_nil, rfl⟩
  | cons label rest ih =>
    have hlabel := complete_tabCell (h label List.mem_cons_self)
    obtain ⟨hcomplete, hwidths⟩ := ih (fun l hl => h l (List.mem_cons_of_mem _ hl)) (index + 1)
    constructor
    · intro cell hcell
      rcases List.mem_cons.1 hcell with rfl | hcell
      · exact hs.complete_paint _ hlabel
      · exact hcomplete cell hcell
    · rw [cells, List.map_cons, List.map_cons, hwidths, hs.visibleWidth_paint _ hlabel]

theorem fullWidth_eq (labels : List Text) :
    fullWidth labels =
      (labels.map fun label => visibleWidth (tabCell label)).sum + (labels.length - 1) := by
  rw [fullWidth, List.sum_eq_foldl, List.foldl_map]

/-- All tabs side by side are complete, and as wide as was reckoned. -/
theorem joined_spec (hs : styles.IsUnseen) (h : ∀ label ∈ labels, Complete label) (active : Nat) :
    Complete (joinWith (styles.paint .frame ['|']) (cells styles active 0 labels)) ∧
      visibleWidth (joinWith (styles.paint .frame ['|']) (cells styles active 0 labels)) =
        fullWidth labels := by
  have hbar : Complete ['|'] := rfl
  have hsep := hs.complete_paint .frame hbar
  -- a bar takes one column, painted or not
  have hone : visibleWidth (styles.paint .frame ['|']) = 1 := hs.visibleWidth_paint .frame hbar
  obtain ⟨hcomplete, hwidths⟩ := cells_spec hs h active 0
  refine ⟨complete_joinWith hsep hcomplete, ?_⟩
  rw [visibleWidth_joinWith hsep hcomplete, hwidths, hone, length_cells, fullWidth_eq, Nat.mul_one]

/-- A strip without room for all tabs fills the width. -/
theorem visibleWidth_narrow (hs : styles.IsUnseen) (h : ∀ label ∈ labels, Complete label)
    (active width : Nat) : visibleWidth (narrow labels styles active width) = width := by
  -- the active label, or an empty one
  have hlabel : Complete (labels.getD active []) := by
    rw [List.getD_eq_getElem?_getD]
    cases hget : labels[active]? with
    | none => rfl
    | some label => exact h label (List.mem_of_getElem? hget)
  have hcell := complete_tabCell hlabel
  unfold narrow
  rw [visibleWidth_append (hs.complete_activeRow hcell _), hs.visibleWidth_activeRow hcell,
    visibleWidth_of_isPlain (isPlain_spaces _), spaces, List.length_replicate]
  omega

/-- A strip is as wide as it is to be. -/
theorem visibleWidth_render (hs : styles.IsUnseen) (h : ∀ label ∈ labels, Complete label)
    (active width : Nat) : visibleWidth (render labels styles active width) = width := by
  unfold render
  split
  · rename_i hroom
    obtain ⟨hcomplete, hwidth⟩ := joined_spec hs h active
    rw [← hwidth] at hroom
    exact (visibleWidth_padRight_eq_iff hroom).2 (Or.inl hcomplete)
  · exact visibleWidth_narrow hs h active width

end TabStrip
end TunnelBoard
