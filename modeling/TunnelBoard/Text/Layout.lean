import TunnelBoard.Text.Escape
/-
  Fitting a row of terminal text into a number of columns.

  `truncate` cuts and drops all styling, `clip` cuts at the same column and keeps every escape
  sequence, `padRight` fills up with spaces.  A cut that leaves more than three columns marks
  itself with three dots, inside the width.
-/

namespace TunnelBoard

/-- What a cut text ends in. -/
def ellipsis : Text := ['.', '.', '.']

/-- `n` spaces. -/
def spaces (n : Nat) : Text := List.replicate n ' '

/-- How many shown characters survive a cut to `width` columns. -/
def keptColumns (width : Nat) : Nat := if width ≤ 3 then width else width - 3

/-- What marks a cut to `width` columns. -/
def cutMark (width : Nat) : Text := if width ≤ 3 then [] else ellipsis

/-- At most `width` columns of `s`: `s` itself if it fits, else its plain text cut. -/
def truncate (s : Text) (width : Nat) : Text :=
  if visibleWidth s ≤ width then s
  else (strip s).take (keptColumns width) ++ cutMark width

/-- Reading from `q`, keep every hidden character and the first `keep` shown ones, and put `mark`
    in place of the first shown character after them. -/
def clipFrom (mark : Text) : Scan → Nat → Text → Text
  | _, _, [] => []
  | q, keep, c :: s =>
    if q.shows c then
      match keep with
      | 0 => mark ++ (q.next c).hidden s
      | keep + 1 => c :: clipFrom mark (q.next c) keep s
    else c :: clipFrom mark (q.next c) keep s

/-- At most `width` columns of `s` with all its styling, cut where `truncate` cuts. -/
def clip (s : Text) (width : Nat) : Text :=
  if visibleWidth s ≤ width then s
  else clipFrom (cutMark width) .plain (keptColumns width) s

/-- `s` filled up with spaces to `width` columns; a wider `s` stays as it is. -/
def padRight (s : Text) (width : Nat) : Text :=
  s ++ spaces (width - visibleWidth s)

/-- `s` cut and then filled up, so exactly `width` columns. -/
def fit (s : Text) (width : Nat) : Text := padRight (truncate s width) width

/-- A label in a column of its own, then a value. -/
def labelRow (label : Text) (labelWidth : Nat) (value : Text) : Text :=
  padRight label labelWidth ++ value

end TunnelBoard
