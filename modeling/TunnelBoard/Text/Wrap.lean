import TunnelBoard.Text.Escape
import TunnelBoard.Text.Blank
/-
  Greedy word wrap.

  Line breaks in the text are kept.  Within one line, words are set one after another with a
  single space between them, and a word that would pass the right edge starts a new row.  A word
  wider than the whole row starts on a row of its own and is cut into full rows; what is left of
  it is the start of the row that goes on.  Styled text is only split at its line breaks.
-/

namespace TunnelBoard

/-- A line without the carriage return that may end it. -/
def dropReturn (line : Text) : Text :=
  match line.getLast? with
  | some '\r' => line.dropLast
  | _ => line

/-- The lines of a text: cut at line feeds, one carriage return dropped at the end of each. -/
def textLines (s : Text) : List Text := (cutAt '\n' s).map dropReturn

/-- A word cut into pieces of `width` characters, the last of which may be shorter. -/
def pieces (width : Nat) (word : Text) : List Text :=
  if _h : width = 0 ∨ word.length ≤ width then [word]
  else word.take width :: pieces width (word.drop width)
termination_by word.length
decreasing_by simp; omega

/-- Set words into rows of `width` characters, the first row already holding `row`. -/
def setWords (width : Nat) : Text → List Text → List Text
  | row, [] => if row.isEmpty then [] else [row]
  | row, word :: rest =>
    if width < word.length then
      let cut := pieces width word
      (if row.isEmpty then [] else [row]) ++ cut.dropLast
        ++ setWords width (cut.getLast?.getD []) rest
    else if row.isEmpty then setWords width word rest
    else if row.length + 1 + word.length ≤ width then setWords width (row ++ ' ' :: word) rest
    else row :: setWords width word rest

/-- The rows of one line: an empty row if it has no words. -/
def wrapLine (width : Nat) (line : Text) : List Text :=
  match words line with
  | [] => [[]]
  | ws => setWords width [] ws

/-- The rows of a text, at most `width` characters each.  Width zero and styled text stop the
    wrapping, not the splitting into lines. -/
def wrap (s : Text) (width : Nat) : List Text :=
  if width = 0 || hasEscape s then textLines s
  else (textLines s).flatMap (wrapLine width)

end TunnelBoard
