import TunnelBoard.Text.Basic
import TunnelBoard.Traffic.Samples
/-
  Braille sparkline of the newest samples.

  Every glyph is two dots wide and four dots high.  The samples are spread over twice as many dot
  columns, each column has one level out of four relative to the largest sample, and a column also
  fills the rows between its own level and the one before it, so the trace is connected.  What the
  samples do not cover is a flat line at the bottom.
-/

namespace TunnelBoard

/-- The glyph of a flat line: the bottom row lit in both columns. -/
def flatGlyph : Char := '⣀'

/-- A flat line. -/
def baseline (width : Nat) : Text := List.replicate width flatGlyph

namespace Sparkline

/-- The bit of a dot within its glyph, by row from the top and by column. -/
def dotBit (row col : Nat) : UInt8 :=
  match row, col with
  | 0, 0 => 0x01
  | 1, 0 => 0x02
  | 2, 0 => 0x04
  | _, 0 => 0x40
  | 0, _ => 0x08
  | 1, _ => 0x10
  | 2, _ => 0x20
  | _, _ => 0x80

/-- The sample shown in dot column `x` when `n` samples are spread over `2 * n` columns. -/
def sampleAt (n x : Nat) : Nat := x * (n - 1) / (2 * n - 1)

/-- The row, from the top, of a value relative to the largest. -/
def rowOf (value largest : Nat) : Nat := 3 - min (value * 3 / largest) 3

/-- The row of dot column `x`. -/
def columnRow (samples : List Nat) (largest x : Nat) : Nat :=
  rowOf (samples.getD (sampleAt samples.length x) 0) largest

/-- A trace that is being drawn: the bits of its glyphs, and the row of the column before. -/
structure Plot where
  cells : List UInt8
  row? : Option Nat
  deriving DecidableEq, Repr

namespace Plot

/-- Room for `n` glyphs. -/
def blank (n : Nat) : Plot := ⟨List.replicate n 0, none⟩

/-- Light a dot of column `x`. -/
def light (x : Nat) (cells : List UInt8) (row : Nat) : List UInt8 :=
  cells.modify (x / 2) (· ||| dotBit row (x % 2))

/-- The rows that join a column to the one before it, if they are not at the same height. -/
def joint (before? : Option Nat) (row : Nat) : List Nat :=
  match before? with
  | none => []
  | some before =>
    if before = row then []
    else List.range' (min before row) (max before row + 1 - min before row)

/-- Draw column `x`. -/
def column (samples : List Nat) (largest : Nat) (p : Plot) (x : Nat) : Plot :=
  let row := columnRow samples largest x
  ⟨(row :: joint p.row? row).foldl (light x) p.cells, some row⟩

/-- The trace of some samples up to column `x`. -/
def upTo (samples : List Nat) (largest x : Nat) : Plot :=
  (List.range x).foldl (column samples largest) (blank samples.length)

end Plot

/-- The glyph with the given dots. -/
def glyph (bits : UInt8) : Char := Char.ofNat (0x2800 + bits.toNat)

/-- The trace of some samples, one glyph for each. -/
def trace (samples : List Nat) (largest : Nat) : Text :=
  (Plot.upTo samples largest (2 * samples.length)).cells.map glyph

end Sparkline

/-- The newest samples of a ring as exactly `width` glyphs. -/
def sparkline (slots : List Nat) (count cursor width : Nat) : Text :=
  let recent := recentSlots slots count cursor (min count width)
  let largest := recent.foldl max 0
  if recent.isEmpty || largest = 0 then baseline width
  else baseline (width - recent.length) ++ Sparkline.trace recent largest

end TunnelBoard
