import TunnelBoard.Style.Theme
import TunnelBoard.Text.Layout
/-
  Styles: what to print before a piece of text to give it the colours of its role.

  Painted text is followed by the base style of the frame, so the background goes on behind
  whatever comes next.  With colour switched off every style is empty and painting changes
  nothing.
-/

namespace TunnelBoard

/-- The part a piece of text plays in a frame. -/
inductive Role where
  | text | muted | brand | accent | active | frame
  deriving DecidableEq, Repr

/-- The escape sequences of one theme. -/
structure StyleSet where
  theme : Theme
  /-- Background and text colour of the whole frame. -/
  base : Text
  text : Text
  muted : Text
  brand : Text
  accent : Text
  active : Text
  frame : Text
  /-- What ends all styling. -/
  reset : Text
  deriving DecidableEq, Repr

/-- A control sequence that sets graphic attributes. -/
def attributes (params : Text) : Text := esc :: '[' :: params ++ ['m']

/-- The parameters of a foreground colour. -/
def foreground (colour : Nat) : Text := "38;5;".toList ++ natText colour

/-- The parameters of a background colour. -/
def background (colour : Nat) : Text := "48;5;".toList ++ natText colour

namespace StyleSet

/-- No styling at all, for terminals without colour. -/
def blank (theme : Theme) : StyleSet := ⟨theme, [], [], [], [], [], [], [], []⟩

/-- The styling of a theme's palette. -/
def coloured (theme : Theme) : StyleSet :=
  let p := theme.palette
  { theme
    base := attributes ("0;".toList ++ background p.background ++ ';' :: foreground p.text)
    text := attributes (foreground p.text)
    muted := attributes (foreground p.muted)
    brand := attributes ("1;".toList ++ foreground p.brand)
    accent := attributes ("1;".toList ++ foreground p.accent)
    active := attributes
      ("1;".toList ++ background p.activeBackground ++ ';' :: foreground p.activeText)
    frame := attributes (foreground p.muted)
    reset := attributes ['0'] }

/-- The styles of a theme, with colour or without. -/
def build (theme : Theme) (colour : Bool) : StyleSet :=
  if colour then coloured theme else blank theme

/-- What opens text of a role. -/
def opening (s : StyleSet) : Role → Text
  | .text => s.text
  | .muted => s.muted
  | .brand => s.brand
  | .accent => s.accent
  | .active => s.active
  | .frame => s.frame

/-- Text in the style of its role, back in the base style at its end. -/
def paint (s : StyleSet) (role : Role) (text : Text) : Text :=
  if (s.opening role).isEmpty then text else s.opening role ++ text ++ s.base

/-- A highlighted row: exactly `width` columns, so that the highlight spans it. -/
def activeRow (s : StyleSet) (text : Text) (width : Nat) : Text := s.paint .active (fit text width)

end StyleSet
end TunnelBoard
