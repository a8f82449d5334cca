import TunnelBoard.Text.Basic
/-
  Blank characters and the words between them.

  The blanks are the twenty-five characters with the Unicode property `White_Space`.  `trim` drops
  them at both ends, `words` cuts a text at every run of them.
-/

namespace TunnelBoard

/-- A character with the property `White_Space`. -/
def isBlank (c : Char) : Bool :=
  let n := c.toNat
  (0x09 ≤ n && n ≤ 0x0D) || n = 0x20 || n = 0x85 || n = 0xA0 || n = 0x1680
    || (0x2000 ≤ n && n ≤ 0x200A) || n = 0x2028 || n = 0x2029 || n = 0x202F || n = 0x205F
    || n = 0x3000

/-- The text without the blanks at its start. -/
def trimStart (s : Text) : Text := s.dropWhile isBlank

/-- The text without the blanks at either end. -/
def trim (s : Text) : Text := (trimStart (trimStart s).reverse).reverse

/-- Whether nothing but blanks is in the text. -/
def allBlank (s : Text) : Bool := s.all isBlank

/-- The maximal runs of characters that are not blank, in order. -/
def words : Text → List Text
  | [] => []
  | c :: s =>
    if isBlank c then words s
    else (c :: s.takeWhile (!isBlank ·)) :: words (s.dropWhile (!isBlank ·))
termination_by s => s.length
decreasing_by
  · simp
  · have := (List.dropWhile_sublist (l := s) (!isBlank ·)).length_le
    simp; omega

end TunnelBoard
