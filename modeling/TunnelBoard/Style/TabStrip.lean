import TunnelBoard.Style.Basic
import TunnelBoard.Style.Memo
/-
  The strip of tabs above a screen, with the active one highlighted.

  When all labels fit, they stand side by side with a bar between them and the strip is filled up.
  Otherwise only the active label is shown.
-/

namespace TunnelBoard

/-- One tab, with a space on either side of its label. -/
def tabCell (label : Text) : Text := ' ' :: label ++ [' ']

namespace TabStrip

/-- The tabs from number `index` on, each painted, joined by bars. -/
def cells (styles : StyleSet) (active : Nat) : Nat → List Text → List Text
  | _, [] => []
  | index, label :: rest =>
    styles.paint (if index = active then .active else .muted) (tabCell label)
      :: cells styles active (index + 1) rest

/-- The columns that all tabs and the bars between them take. -/
def fullWidth (labels : List Text) : Nat :=
  labels.foldl (fun n l => n + visibleWidth (tabCell l)) 0 + (labels.length - 1)

/-- The strip when there is no room for all tabs: the active label, highlighted, and spaces. -/
def narrow (labels : List Text) (styles : StyleSet) (active width : Nat) : Text :=
  let label := labels.getD active []
  let room := utf8Length label + 2
  styles.activeRow (tabCell label) (min width room) ++ spaces (width - room)

/-- The strip of `width` columns. -/
def render (labels : List Text) (styles : StyleSet) (active width : Nat) : Text :=
  if fullWidth labels ≤ width then
    padRight (joinWith (styles.paint .frame ['|']) (cells styles active 0 labels)) width
  else narrow labels styles active width

end TabStrip

/-- Rendered strips, remembered by theme, active tab and width. -/
structure TabStripCache where
  labels : List Text
  strips : Memo (Theme × Nat × Nat) Text

namespace TabStripCache

def empty (labels : List Text) : TabStripCache := ⟨labels, .empty⟩

/-- The strip for these styles; the first one asked for at a theme, tab and width is kept. -/
def get (c : TabStripCache) (styles : StyleSet) (active width : Nat) : Text × TabStripCache :=
  let (strip, strips) :=
    c.strips.get (styles.theme, active, width) fun _ => TabStrip.render c.labels styles active width
  (strip, { c with strips })

end TabStripCache

/-- Style sets, remembered by theme. -/
structure StyleCache where
  colour : Bool
  sets : Memo Theme StyleSet

namespace StyleCache

def empty (colour : Bool) : StyleCache := ⟨colour, .empty⟩

/-- The styles of a theme. -/
def get (c : StyleCache) (theme : Theme) : StyleSet × StyleCache :=
  let (set, sets) := c.sets.get theme (StyleSet.build · c.colour)
  (set, { c with sets })

end StyleCache
end TunnelBoard
