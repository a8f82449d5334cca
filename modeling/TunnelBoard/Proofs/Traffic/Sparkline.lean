import Mathlib.Data.List.Rotate
import Mathlib.Tactic.Ring
import TunnelBoard.Proofs.Frame.Screen
import TunnelBoard.Proofs.Log.Ring
import TunnelBoard.Proofs.Text.Utf8
import TunnelBoard.Traffic.Counters
import TunnelBoard.Traffic.Sparkline
/-
  What a sparkline draws.

  The newest samples of a ring are the end of its slots, once these are turned round to start at the
  cursor (`recentSlots_eq`).  The trace is drawn column by column, and the invariant (`DrawnTo`) is
  that the columns drawn so far have just the dots they are to have and the others have none: a column
  changes no other column, although two of them share a glyph, since the bits of the eight dots are
  different.

  The samples are spread over twice as many columns by a division that rounds down.  Going from one
  column to the next it never goes back and never skips a sample, since column `2 * i + 1` shows
  sample `i` (`sampleAt_odd`); so the largest sample is shown, and shown at the top.

  The numbers here have no bound, those of the program have 64 bits, and 128 in one place.  That
  nothing overflows, that nothing is divided by zero and that every index is in range is stated on its
  own, for reading the ring (`ReadsInRange`) and for drawing (`DrawsInRange`).  One product needs a
  bound on the number of samples, `sampleBound`, which is more than memory holds.
-/

namespace TunnelBoard

/-! ## The newest samples of a ring -/

/-- The slot that holds the `i`-th of the newest `n` samples. -/
theorem slot_mod (size cursor n i : Nat) (h : n ≤ size) :
    (cursor % size + size - n + i) % size = (size - n + i + cursor) % size := by
  have hplus : cursor % size + size - n + i = cursor % size + (size - n + i) := by omega
  rw [hplus, Nat.mod_add_mod, Nat.add_comm]

/-- **The newest samples are the last slots before the cursor**, read round the end. -/
theorem recentSlots_eq (slots : List Nat) (count cursor n : Nat) :
    recentSlots slots count cursor n = lastOf (min n count) (slots.rotate cursor) := by
  have hlength : (lastOf (min n count) (slots.rotate cursor)).length
      = min (min n count) slots.length := by
    rw [length_lastOf, List.length_rotate]
  refine List.ext_getElem ?_ fun i h₁ h₂ => ?_
  · rw [hlength, recentSlots, List.length_map, List.length_range]
  · have hi : i < min (min n count) slots.length := hlength ▸ h₂
    have hstart : slots.length - min n count = slots.length - min (min n count) slots.length := by omega
    have hslot : (slots.length - min n count + i + cursor) % slots.length < slots.length :=
      Nat.mod_lt _ (by omega)
    have hleft : (recentSlots slots count cursor n)[i]
        = slots.getD ((cursor % slots.length + slots.length - min (min n count) slots.length + i)
            % slots.length) 0 := by
      simp only [recentSlots, List.getElem_map, List.getElem_range]
    have hright : (lastOf (min n count) (slots.rotate cursor))[i]
        = slots[(slots.length - min n count + i + cursor) % slots.length] := by
      simp only [lastOf, List.getElem_drop, List.getElem_rotate, List.length_rotate]
    rw [hleft, hright, slot_mod _ _ _ _ (Nat.min_le_right _ _), ← hstart, List.getD_eq_getElem _ _ hslot]

namespace Sparkline

/-! ## Dots -/

/-- The number of a dot in the standard order of the eight: down the left column and down the right one,
    three rows each, and then the two dots of the bottom row. -/
def dotNumber (row col : Nat) : Nat := if row < 3 then 3 * col + row else 6 + col

/-- A glyph shows a dot. -/
def shows (c : Char) (row col : Nat) : Bool := (c.toNat - 0x2800).testBit (dotNumber row col)

/-- The dot of column `x` is lit. -/
def isLit (cells : List UInt8) (x row : Nat) : Bool :=
  (cells.getD (x / 2) 0).toNat.testBit (dotNumber row (x % 2))

/-- The bits of different dots are different. -/
theorem testBit_dotBit : ∀ r < 4, ∀ c < 2, ∀ row < 4, ∀ col < 2,
    (dotBit r c).toNat.testBit (dotNumber row col) = decide (row = r ∧ col = c) := by decide

/-- Whatever the bits of a glyph, they number a character. -/
theorem valid_glyph (bits : UInt8) : (0x2800 + bits.toNat).isValidChar := by
  have hbits := bits.toNat_lt
  exact Or.inl (by omega)

/-- The character of a glyph has the bits of the glyph behind those of the block. -/
theorem toNat_glyph (bits : UInt8) : (glyph bits).toNat = 0x2800 + bits.toNat :=
  Utf8.toNat_ofNat_of_valid (valid_glyph bits)

/-- A glyph shows the dots whose bits are set. -/
theorem shows_glyph (bits : UInt8) (row col : Nat) :
    shows (glyph bits) row col = bits.toNat.testBit (dotNumber row col) := by
  rw [shows, toNat_glyph, Nat.add_sub_cancel_left]

/-! ## What is to be drawn

The trace is given by the row of each column.  What lies between two columns next to each other is
drawn as well, so that the line is connected. -/

/-- The row of column `x`: the third of the largest sample that its own sample reaches, rounded down and
    counted from the bottom. -/
def traceRow (samples : List Nat) (largest x : Nat) : Nat :=
  3 - 3 * samples.getD (x * (samples.length - 1) / (2 * samples.length - 1)) 0 / largest

/-- The rows between a column and the one before it, with both; the first column has only its own. -/
def Between (samples : List Nat) (largest x row : Nat) : Prop :=
  min (traceRow samples largest (x - 1)) (traceRow samples largest x) ≤ row ∧
    row ≤ max (traceRow samples largest (x - 1)) (traceRow samples largest x)

/-- A level above the highest would be drawn at the top as well. -/
theorem columnRow_eq (samples : List Nat) (largest x : Nat) :
    columnRow samples largest x = traceRow samples largest x := by
  have hlevel : ∀ level, 3 - min level 3 = 3 - level := fun level => by omega
  rw [columnRow, rowOf, hlevel, Nat.mul_comm]
  rfl

/-- All rows that a column needs are rows of a glyph. -/
theorem lt_of_between {samples : List Nat} {largest x row : Nat} (h : Between samples largest x row) :
    row < 4 := by
  have hbefore : traceRow samples largest (x - 1) < 4 := Nat.sub_lt_succ 3 _
  have hown : traceRow samples largest x < 4 := Nat.sub_lt_succ 3 _
  exact Nat.lt_of_le_of_lt h.2 (Nat.max_lt.2 ⟨hbefore, hown⟩)

namespace Plot

variable {samples : List Nat} {largest x y r row : Nat} {cells : List UInt8} {p : Plot}

/-- To light a dot leaves as many glyphs as there are. -/
theorem length_light (x : Nat) (cells : List UInt8) (r : Nat) :
    (light x cells r).length = cells.length := List.length_modify ..

/-- To light a dot lights no other, in whichever glyph it is. -/
theorem isLit_light (hx : x / 2 < cells.length) (hr : r < 4) (hrow : row < 4) :
    isLit (light x cells r) y row = (isLit cells y row || decide (y = x ∧ row = r)) := by
  have hget : (light x cells r).getD (y / 2) 0
      = if x / 2 = y / 2 then cells.getD (y / 2) 0 ||| dotBit r (x % 2) else cells.getD (y / 2) 0 := by
    rw [List.getD_eq_getElem?_getD, light, List.getElem?_modify, List.getD_eq_getElem?_getD]
    split
    · rename_i hsame
      rw [← hsame, List.getElem?_eq_getElem hx]
      rfl
    · rw [id_map']
  rw [isLit, hget, isLit]
  -- in the glyph that the dot is in, its bit is set; in others, nothing changes
  split
  · rename_i hsame
    have hdot := testBit_dotBit r hr (x % 2) (Nat.mod_lt _ (by decide)) row hrow (y % 2)
      (Nat.mod_lt _ (by decide))
    have hcolumn : (row = r ∧ y % 2 = x % 2) ↔ (y = x ∧ row = r) := by omega
    rw [UInt8.toNat_or, Nat.testBit_or, hdot, decide_eq_decide.2 hcolumn]
  · rename_i hother
    have hne : ¬ (y = x ∧ row = r) := fun h => hother (by rw [h.1])
    rw [decide_eq_false hne, Bool.or_false]

/-- To light several dots does not change how many glyphs there are. -/
theorem length_foldl_light (x : Nat) (rows : List Nat) :
    ∀ cells : List UInt8, (rows.foldl (light x) cells).length = cells.length := by
  induction rows with
  | nil => exact fun cells => rfl
  | cons r rows ih =>
    intro cells
    rw [List.foldl_cons, ih, length_light]

/-- To light some dots of a column lights no others. -/
theorem isLit_foldl_light (rows : List Nat) (hrow : row < 4) :
    ∀ cells : List UInt8, x / 2 < cells.length → (∀ r ∈ rows, r < 4) →
      isLit (rows.foldl (light x) cells) y row = (isLit cells y row || decide (y = x ∧ row ∈ rows)) := by
  induction rows with
  | nil =>
    intro cells _ _
    have hnone : ¬ (y = x ∧ row ∈ ([] : List Nat)) := fun h => absurd h.2 List.not_mem_nil
    rw [List.foldl_nil, decide_eq_false hnone, Bool.or_false]
  | cons r rows ih =>
    intro cells hx hrows
    have hx' : x / 2 < (light x cells r).length := by
      rw [length_light]
      exact hx
    rw [List.foldl_cons, ih _ hx' fun r' hr' => hrows r' (List.mem_cons_of_mem _ hr'),
      isLit_light hx (hrows r List.mem_cons_self) hrow, Bool.or_assoc]
    congr 1
    rw [← Bool.decide_or, decide_eq_decide, List.mem_cons]
    tauto

/-! ## Columns

The columns are drawn from left to right, and the plot remembers the row of the last one.  The
invariant says which dots are lit so far: those of the columns that were drawn, and no others. -/

/-- The rows of a column: its own, and those that join it to the one before. -/
theorem mem_column_rows {before? : Option Nat} :
    row ∈ r :: joint before? r ↔ min (before?.getD r) r ≤ row ∧ row ≤ max (before?.getD r) r := by
  cases before? with
  | none =>
    rw [joint, List.mem_singleton, Option.getD_none, Nat.min_self, Nat.max_self]
    omega
  | some before =>
    rw [joint, Option.getD_some, List.mem_cons]
    split
    · rename_i hlevel
      rw [hlevel, Nat.min_self, Nat.max_self, or_iff_left List.not_mem_nil]
      omega
    · rw [List.mem_range'_1]
      omega

/-- The columns before `x` are drawn, and no others. -/
structure DrawnTo (samples : List Nat) (largest x : Nat) (p : Plot) : Prop where
  length : p.cells.length = samples.length
  row : p.row? = if x = 0 then none else some (traceRow samples largest (x - 1))
  dots : ∀ y row, row < 4 → (isLit p.cells y row = true ↔ y < x ∧ Between samples largest y row)

/-- Nothing is drawn at first. -/
theorem drawnTo_blank (samples : List Nat) (largest : Nat) :
    DrawnTo samples largest 0 (blank samples.length) where
  length := List.length_replicate
  row := (if_pos rfl).symm
  dots := by
    intro y row _
    -- every glyph is blank, and beyond the last one there is nothing to be lit
    have hdark : (blank samples.length).cells.getD (y / 2) 0 = 0 := by
      rw [List.getD_eq_getElem?_getD, blank, List.getElem?_replicate]
      split
      · rfl
      · rfl
    have hunlit : isLit (blank samples.length).cells y row = false := by
      rw [isLit, hdark]
      exact Nat.zero_testBit _
    rw [hunlit]
    exact ⟨fun h => absurd h Bool.false_ne_true, fun h => absurd h.1 (Nat.not_lt_zero y)⟩

/-- What is lit in the next column is what is to be lit in it. -/
theorem DrawnTo.mem_rows (h : DrawnTo samples largest x p) :
    row ∈ columnRow samples largest x :: joint p.row? (columnRow samples largest x)
      ↔ Between samples largest x row := by
  have hbefore : p.row?.getD (columnRow samples largest x) = traceRow samples largest (x - 1) := by
    rw [h.row]
    split
    · rename_i hfirst
      rw [hfirst, Option.getD_none, columnRow_eq]
    · exact Option.getD_some
  rw [mem_column_rows, hbefore, columnRow_eq]
  exact Iff.rfl

/-- One more column is drawn, and nothing else changes. -/
theorem DrawnTo.column (h : DrawnTo samples largest x p) (hx : x < 2 * samples.length) :
    DrawnTo samples largest (x + 1) (p.column samples largest x) := by
  have hcell : x / 2 < p.cells.length := by
    rw [h.length]
    omega
  refine ⟨?_, ?_, fun y r hr => ?_⟩
  · rw [Plot.column, length_foldl_light, h.length]
  · rw [if_neg (Nat.succ_ne_zero x), Nat.add_sub_cancel, ← columnRow_eq]
    rfl
  · rw [Plot.column, isLit_foldl_light _ hr _ hcell fun r hr => lt_of_between (h.mem_rows.1 hr),
      Bool.or_eq_true, h.dots y r hr, decide_eq_true_iff, h.mem_rows]
    -- a dot of the columns before was to be lit already; one of this column is to be lit from now on
    constructor
    · rintro (⟨hy, hbetween⟩ | ⟨rfl, hbetween⟩)
      · exact ⟨by omega, hbetween⟩
      · exact ⟨Nat.lt_succ_self y, hbetween⟩
    · rintro ⟨hy, hbetween⟩
      rcases Nat.lt_or_eq_of_le (Nat.lt_succ_iff.1 hy) with hlt | rfl
      · exact Or.inl ⟨hlt, hbetween⟩
      · exact Or.inr ⟨rfl, hbetween⟩

/-- So the columns are drawn one after the other. -/
theorem drawnTo_upTo (samples : List Nat) (largest : Nat) :
    ∀ x ≤ 2 * samples.length, DrawnTo samples largest x (upTo samples largest x) := by
  intro x
  induction x with
  | zero => exact fun _ => drawnTo_blank samples largest
  | succ x ih =>
    intro hx
    have hstep : upTo samples largest (x + 1) = (upTo samples largest x).column samples largest x := by
      rw [upTo, List.range_succ, List.foldl_append]
      rfl
    rw [hstep]
    exact (ih (by omega)).column hx

end Plot

/-! ## The samples of the columns -/

section

variable {n x y i : Nat}

/-- From column to column the samples are gone through in their order. -/
theorem sampleAt_mono (n : Nat) (h : x ≤ y) : sampleAt n x ≤ sampleAt n y :=
  Nat.div_le_div_right (Nat.mul_le_mul_right _ h)

/-- The odd columns show the samples one by one. -/
theorem sampleAt_odd (h : i < n) : sampleAt n (2 * i + 1) = i := by
  obtain ⟨k, rfl⟩ := Nat.exists_eq_add_of_lt h
  have hlast : i + k + 1 - 1 = i + k := rfl
  have hcolumns : 2 * (i + k + 1) - 1 = 2 * (i + k) + 1 := by omega
  have hproduct : (2 * i + 1) * (i + k) = k + (2 * (i + k) + 1) * i := by ring
  rw [sampleAt, hlast, hcolumns, hproduct, Nat.add_mul_div_left _ _ (Nat.succ_pos _),
    Nat.div_eq_of_lt (by omega), Nat.zero_add]

/-- Every column shows a sample that there is. -/
theorem sampleAt_lt (h : x < 2 * n) : sampleAt n x < n := by
  -- the last column shows the last sample, and no column shows a later one
  have hlast : sampleAt n x ≤ sampleAt n (2 * (n - 1) + 1) := sampleAt_mono n (by omega)
  rw [sampleAt_odd (by omega)] at hlast
  omega

/-- The largest number of samples for which the product in `sampleAt` still is a word of 64 bits. -/
def sampleBound : Nat := 3037000500

/-- Up to that number of samples, the product is a word. -/
theorem product_lt (hx : x < 2 * n) (h : n ≤ sampleBound) : x * (n - 1) < UInt64.size := by
  have hlargest : (2 * sampleBound - 1) * (sampleBound - 1) < UInt64.size := by decide
  exact Nat.lt_of_le_of_lt (Nat.mul_le_mul (by omega) (by omega)) hlargest

end

/-! ## The trace -/

/-- Some glyphs are the connected trace of some samples: there is one for each of them, its dots are the
    rows between each column and the one before it, and the largest sample is shown at the top. -/
structure IsTrace (samples : List Nat) (largest : Nat) (glyphs : Text) : Prop where
  length : glyphs.length = samples.length
  braille : ∀ c ∈ glyphs, 0x2800 ≤ c.toNat ∧ c.toNat ≤ 0x28ff
  dots : ∀ x < 2 * samples.length, ∀ row < 4,
    (shows (glyphs.getD (x / 2) flatGlyph) row (x % 2) = true ↔ Between samples largest x row)
  top : ∃ x < 2 * samples.length,
    samples.getD (x * (samples.length - 1) / (2 * samples.length - 1)) 0 = largest ∧
      shows (glyphs.getD (x / 2) flatGlyph) 0 (x % 2) = true

/-- A number has a column in which its sample is shown, at the top if it is the largest. -/
theorem exists_column {samples : List Nat} {value : Nat} (h : value ∈ samples) (hpos : 0 < value) :
    ∃ x < 2 * samples.length,
      samples.getD (x * (samples.length - 1) / (2 * samples.length - 1)) 0 = value ∧
        traceRow samples value x = 0 := by
  obtain ⟨i, hi, hvalue⟩ := List.getElem_of_mem h
  have hshown : samples.getD ((2 * i + 1) * (samples.length - 1) / (2 * samples.length - 1)) 0
      = value := by
    rw [← hvalue, ← List.getD_eq_getElem _ 0 hi]
    exact congrArg (samples.getD · 0) (sampleAt_odd hi)
  refine ⟨2 * i + 1, by omega, hshown, ?_⟩
  rw [traceRow, hshown, Nat.mul_div_cancel _ hpos]

/-- A trace has a glyph for each sample. -/
theorem length_trace (samples : List Nat) (largest : Nat) :
    (trace samples largest).length = samples.length := by
  rw [trace, List.length_map, (Plot.drawnTo_upTo samples largest _ (Nat.le_refl _)).length]

/-- What is drawn is the connected trace of the samples, if the largest of them is not zero. -/
theorem isTrace_trace {samples : List Nat} {largest : Nat} (h : largest ∈ samples)
    (hpos : 0 < largest) : IsTrace samples largest (trace samples largest) := by
  have hdrawn := Plot.drawnTo_upTo samples largest _ (Nat.le_refl _)
  have hdots : ∀ x < 2 * samples.length, ∀ row < 4,
      (shows ((trace samples largest).getD (x / 2) flatGlyph) row (x % 2) = true
        ↔ Between samples largest x row) := by
    intro x hx row hrow
    have hcell : x / 2 < (Plot.upTo samples largest (2 * samples.length)).cells.length := by
      rw [hdrawn.length]
      omega
    -- the glyphs are the bits of the plot, as characters
    have hglyph : (trace samples largest).getD (x / 2) flatGlyph
        = glyph ((Plot.upTo samples largest (2 * samples.length)).cells.getD (x / 2) 0) := by
      rw [List.getD_eq_getElem _ _ hcell, trace, List.getD_eq_getElem _ _ (by rwa [List.length_map]),
        List.getElem_map]
    rw [hglyph, shows_glyph]
    exact (hdrawn.dots x row hrow).trans (and_iff_right hx)
  refine ⟨length_trace samples largest, fun c hc => ?_, hdots, ?_⟩
  · obtain ⟨bits, -, rfl⟩ := List.mem_map.1 hc
    have hbits := bits.toNat_lt
    rw [toNat_glyph]
    omega
  · obtain ⟨x, hx, hshown, htop⟩ := exists_column h hpos
    refine ⟨x, hx, hshown, (hdots x hx 0 (by decide)).2 ⟨?_, Nat.zero_le _⟩⟩
    rw [htop, Nat.min_zero]

/-! ## What could go wrong -/

/-- The newest `n` samples of a ring are read from slots that it has.  The sum of two indices is a word
    for all the slots that there is an address for. -/
structure ReadsInRange (slots : List Nat) (cursor n : Nat) : Prop where
  start : n ≤ cursor % slots.length + slots.length
  sum : 0 < n → slots.length ≤ Nat.pow 2 60 → cursor % slots.length + slots.length < UInt64.size
  slot : ∀ i < n, (cursor % slots.length + slots.length - n + i) % slots.length < slots.length

/-- Nothing goes wrong while the trace of some samples is drawn.  Nothing is divided by zero; the samples,
    glyphs and rows exist; a level is computed within 128 bits and is no higher than the highest; and the
    bits of a glyph make a character.  The product of a column and an index is a word for up to three
    thousand million samples, which is 24 gigabytes of them. -/
structure DrawsInRange (samples : List Nat) (largest : Nat) : Prop where
  divisor : 0 < largest ∧ 0 < 2 * samples.length - 1
  sample : ∀ x < 2 * samples.length, sampleAt samples.length x < samples.length
  level : ∀ value ∈ samples, value * 3 < Nat.pow 2 128 ∧ value * 3 / largest ≤ 3
  cell : ∀ x < 2 * samples.length, x / 2 < (Plot.upTo samples largest x).cells.length
  rows : ∀ x < 2 * samples.length, ∀ row ∈ columnRow samples largest x ::
    Plot.joint (Plot.upTo samples largest x).row? (columnRow samples largest x), row < 4
  character : ∀ bits : UInt8, (0x2800 + bits.toNat).isValidChar
  product : samples.length ≤ sampleBound →
    ∀ x < 2 * samples.length, x * (samples.length - 1) < UInt64.size

/-- Reading as many samples as there are slots, at most, does not go wrong. -/
theorem readsInRange {slots : List Nat} {n : Nat} (cursor : Nat) (h : n ≤ slots.length) :
    ReadsInRange slots cursor n where
  start := Nat.le_trans h (Nat.le_add_left _ _)
  sum hn haddress := by
    have hword : Nat.pow 2 60 + Nat.pow 2 60 ≤ UInt64.size := by decide
    have hcursor : cursor % slots.length < slots.length := Nat.mod_lt _ (by omega)
    omega
  slot _ hi := Nat.mod_lt _ (by omega)

/-- Neither does drawing samples of which one is the largest and not zero. -/
theorem drawsInRange {samples : List Nat} {largest : Nat} (hword : ∀ v ∈ samples, v ≤ wordMax)
    (hmem : largest ∈ samples) (hle : ∀ v ∈ samples, v ≤ largest) (hpos : 0 < largest) :
    DrawsInRange samples largest := by
  have hsome : 0 < samples.length := List.length_pos_of_mem hmem
  refine ⟨⟨hpos, by omega⟩, fun x hx => sampleAt_lt hx, fun value hvalue => ⟨?_, ?_⟩, fun x hx => ?_,
    fun x hx row hrow => ?_, valid_glyph, fun hbound x hx => product_lt hx hbound⟩
  · have hwide : wordMax * 3 < Nat.pow 2 128 := by decide
    exact Nat.lt_of_le_of_lt (Nat.mul_le_mul_right 3 (hword value hvalue)) hwide
  · calc value * 3 / largest ≤ largest * 3 / largest :=
        Nat.div_le_div_right (Nat.mul_le_mul_right 3 (hle value hvalue))
      _ = 3 := Nat.mul_div_cancel_left 3 hpos
  · rw [(Plot.drawnTo_upTo samples largest x (Nat.le_of_lt hx)).length]
    omega
  · exact lt_of_between ((Plot.drawnTo_upTo samples largest x (Nat.le_of_lt hx)).mem_rows.1 hrow)

end Sparkline

/-! ## The line

The newest samples are the end of the slots, turned round to the cursor.  If there are fewer of them
than the line is wide, a flat line fills the rest. -/

/-- The largest of some numbers is one of them, or what they are compared with. -/
theorem foldl_max_mem (ns : List Nat) : ∀ m : Nat, ns.foldl max m = m ∨ ns.foldl max m ∈ ns := by
  induction ns with
  | nil => exact fun m => Or.inl rfl
  | cons n ns ih =>
    intro m
    rw [List.foldl_cons]
    rcases ih (max m n) with hsame | hmem
    · rcases Nat.le_total m n with hle | hle
      · exact Or.inr (by rw [hsame, Nat.max_eq_right hle]; exact List.mem_cons_self)
      · exact Or.inl (by rw [hsame, Nat.max_eq_left hle])
    · exact Or.inr (List.mem_cons_of_mem _ hmem)

section

variable {slots : List Nat} {count cursor width : Nat}

/-- A sparkline, said of the end of the slots that are turned round to the cursor. -/
theorem sparkline_eq (slots : List Nat) (count cursor width : Nat) :
    sparkline slots count cursor width =
      let recent := lastOf (min count width) (slots.rotate cursor)
      if recent.isEmpty || recent.foldl max 0 = 0 then baseline width
      else baseline (width - recent.length) ++ Sparkline.trace recent (recent.foldl max 0) := by
  have hnewest : min (min count width) count = min count width := Nat.min_eq_left (Nat.min_le_left _ _)
  rw [sparkline, recentSlots_eq, hnewest]

/-- Without a sample other than zero the line is flat. -/
theorem sparkline_of_zero (h : ∀ v ∈ lastOf (min count width) (slots.rotate cursor), v = 0) :
    sparkline slots count cursor width = List.replicate width flatGlyph := by
  have hflat : (lastOf (min count width) (slots.rotate cursor)).foldl max 0 = 0 := by
    rcases foldl_max_mem (lastOf (min count width) (slots.rotate cursor)) 0 with hsame | hmem
    · exact hsame
    · exact h _ hmem
  rw [sparkline_eq]
  exact if_pos (by rw [hflat, decide_eq_true rfl, Bool.or_true])

/-- Otherwise the trace stands at its end. -/
theorem sparkline_of_pos (hword : ∀ v ∈ slots, v ≤ wordMax) {v : Nat}
    (h : v ∈ lastOf (min count width) (slots.rotate cursor)) (hne : v ≠ 0) :
    let recent := lastOf (min count width) (slots.rotate cursor)
    ∃ largest ∈ recent, ∃ glyphs : Text,
      (∀ w ∈ recent, w ≤ largest) ∧
      sparkline slots count cursor width
        = List.replicate (width - recent.length) flatGlyph ++ glyphs ∧
      Sparkline.IsTrace recent largest glyphs ∧
      Sparkline.DrawsInRange recent largest := by
  intro recent
  have hrecent : ∀ w ∈ recent, w ≤ wordMax := fun w hw =>
    hword w (List.mem_rotate.1 (List.mem_of_mem_drop hw))
  have hle : ∀ w ∈ recent, w ≤ recent.foldl max 0 := (le_foldl_max recent 0).2
  have hpos : 0 < recent.foldl max 0 := Nat.lt_of_lt_of_le (Nat.pos_of_ne_zero hne) (hle v h)
  -- the largest sample is one of the samples, since it is not the zero that they are compared with
  have hmem : recent.foldl max 0 ∈ recent :=
    (foldl_max_mem recent 0).resolve_left (Nat.ne_of_gt hpos)
  have hsome : recent.isEmpty = false := List.isEmpty_eq_false_iff.2 (List.ne_nil_of_mem h)
  refine ⟨_, hmem, _, hle, ?_, Sparkline.isTrace_trace hmem hpos,
    Sparkline.drawsInRange hrecent hmem hle hpos⟩
  rw [sparkline_eq]
  exact if_neg (by rw [hsome, decide_eq_false (Nat.ne_of_gt hpos)]; exact Bool.false_ne_true)

/-- There are as many newest samples as asked for, if so many have been recorded and kept. -/
theorem length_recent (slots : List Nat) (count cursor width : Nat) :
    (lastOf (min count width) (slots.rotate cursor)).length = min (min count width) slots.length := by
  rw [length_lastOf, List.length_rotate]

/-- Flat or not, the line is as wide as it is to be. -/
theorem length_sparkline (slots : List Nat) (count cursor width : Nat) :
    (sparkline slots count cursor width).length = width := by
  have hrecent := length_recent slots count cursor width
  rw [sparkline_eq]
  dsimp only
  split
  · exact List.length_replicate
  · rw [List.length_append, Sparkline.length_trace, baseline, List.length_replicate]
    omega

/-- **A sparkline is the connected trace of the newest samples**, as wide as it is to be, with a flat
    line in front of it.  Columns go through the samples in order and skip none.  Nothing goes wrong
    on the way; of the product of a column and an index this is said for up to `sampleBound` samples,
    three thousand million of them or 24 gigabytes, which no ring has. -/
theorem sparkline_draws_newest (slots : List Nat) (count cursor width : Nat)
    (hword : ∀ v ∈ slots, v ≤ wordMax) :
    let recent := lastOf (min count width) (slots.rotate cursor)
    let n := recent.length
    let line := sparkline slots count cursor width
    line.length = width ∧
    n = min (min count width) slots.length ∧
    Sparkline.ReadsInRange slots cursor n ∧
    ((∀ v ∈ recent, v = 0) → line = List.replicate width flatGlyph) ∧
    ((∃ v ∈ recent, v ≠ 0) → ∃ largest ∈ recent, ∃ glyphs : Text,
      (∀ v ∈ recent, v ≤ largest) ∧
      line = List.replicate (width - n) flatGlyph ++ glyphs ∧
      Sparkline.IsTrace recent largest glyphs ∧
      Sparkline.DrawsInRange recent largest) ∧
    (∀ x y, x ≤ y → x * (n - 1) / (2 * n - 1) ≤ y * (n - 1) / (2 * n - 1)) ∧
    (∀ i < n, ∃ x < 2 * n, x * (n - 1) / (2 * n - 1) = i) := by
  intro recent n line
  have hlength : n = min (min count width) slots.length := length_recent slots count cursor width
  exact ⟨length_sparkline slots count cursor width, hlength, Sparkline.readsInRange cursor (by omega),
    sparkline_of_zero, fun ⟨_, hv, hne⟩ => sparkline_of_pos hword hv hne,
    fun x y hxy => Sparkline.sampleAt_mono n hxy,
    fun i hi => ⟨2 * i + 1, by omega, Sparkline.sampleAt_odd hi⟩⟩

/-- A rise from nothing, in a ring that has gone round, behind one column of flat line. -/
theorem sparkline_draws_newest_of_rise :
    (∀ v ∈ [9, 0], v ≤ wordMax) ∧ sparkline [9, 0] 2 1 3 = ['⣀', '⣀', '⣸'] ∧
      ∃ glyphs, ['⣀', '⣀', '⣸'] = List.replicate 1 flatGlyph ++ glyphs ∧
        Sparkline.IsTrace [0, 9] 9 glyphs := by
  have hword : ∀ v ∈ [9, 0], v ≤ wordMax := by decide
  have hline : sparkline [9, 0] 2 1 3 = ['⣀', '⣀', '⣸'] := by decide
  obtain ⟨-, -, -, -, htrace, -⟩ := sparkline_draws_newest [9, 0] 2 1 3 hword
  obtain ⟨largest, hmem, glyphs, hle, heq, hdrawn, -⟩ := htrace ⟨9, by decide, by decide⟩
  have hlargest : largest = 9 := by
    have hnine : 9 ≤ largest := hle 9 (by decide)
    have hcases : largest = 0 ∨ largest = 9 := List.mem_pair.1 hmem
    omega
  rw [hline] at heq
  exact ⟨hword, hline, glyphs, heq, hlargest ▸ hdrawn⟩

end

end TunnelBoard
