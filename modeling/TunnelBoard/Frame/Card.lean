import TunnelBoard.Frame.Base
import TunnelBoard.Style.Basic
/-
  From content lines to a full screen: a box around the lines, the box centered, the screen filled.
-/

namespace TunnelBoard

/-- The widest of some rows, in columns. -/
def widest (lines : List Text) : Nat := (lines.map visibleWidth).foldl max 0

/-- The lines boxed with one space of margin.  The inside is `contentWidth` columns wide, at least
    one, and at least as wide as the widest line. -/
def card (lines : List Text) (contentWidth : Nat) (styles : StyleSet) : List Text :=
  let inner := max (max contentWidth 1) (widest lines)
  let border := styles.paint .frame ('+' :: List.replicate (inner + 2) '-' ++ ['+'])
  let edge := styles.paint .frame ['|']
  let row (line : Text) : Text :=
    edge ++ ' ' :: padRight (reapplyBase line styles.base) inner ++ ' ' :: edge
  border :: lines.map row ++ [border]

/-- The rows placed in the middle of a screen.  Rows that are too wide are clipped, rows past the
    bottom are dropped. -/
def center (lines : List Text) (screenWidth screenHeight : Nat) : List Text :=
  let width := max screenWidth 1
  let height := max screenHeight 1
  let top := (height - lines.length) / 2
  let left := (width - widest lines) / 2
  List.replicate top [] ++ (lines.take (height - top)).map fun l => spaces left ++ clip l (width - left)

/-- The rows filled up to a whole screen: exactly `height` rows of `width` columns, each opened
    with the base style and closed with a reset. -/
def fill (lines : List Text) (screenWidth screenHeight : Nat) (base reset : Text) : List Text :=
  let width := max screenWidth 1
  let height := max screenHeight 1
  let rows := (lines.take height).map fun l => base ++ padRight (clip l width) width ++ reset
  rows ++ List.replicate (height - rows.length) (base ++ spaces width ++ reset)

end TunnelBoard
