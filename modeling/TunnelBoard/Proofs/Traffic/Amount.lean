import Mathlib.Data.List.TakeWhile
import TunnelBoard.Proofs.Number.Rounding
import TunnelBoard.Proofs.Text.Plain
import TunnelBoard.Traffic.Amount
/-
  Byte counts are shown in the right unit.

  What is shown is read back first: the number in front of the blank and the place of the unit behind
  it.  The size in a unit is divided by the base and rounded once for each unit on the way (`sizeIn`).
  Five roundings make a count of less than 2^50 bytes larger by less than a byte (`sizeIn_lt`), and
  bounds that 53 bits can hold survive all of them (`le_sizeIn`); so which unit is chosen can be told
  from the bytes (`base_le_sizeIn_iff`).

  The number is rounded once more when it is printed, behind the choice of its unit.  So it reaches
  the base from a half below the next unit on, and `1000 kB` stands where `1.00 MB` should.  It is
  never more than that, so a larger count is still shown as no less: in one unit because rounding
  keeps the order, and from one unit to a later one because the base of the first is at most one of
  the second (`worth_mono`).

  Both systems of units are treated at once.  All that is needed of a base is that it is even, more
  than a hundred, and small enough for its fifth power to leave some bits (`IsBase`).
-/

namespace TunnelBoard

/-! ## Reading what is shown

To speak of what is shown, it has to be read.  The number stands in front of the first blank, as a
decimal numeral, and the unit behind it. -/

/-- The number that a decimal numeral stands for, with or without decimal places. -/
def numeralValue (t : Text) : ℚ :=
  let whole := t.takeWhile (· ≠ '.')
  let places := (t.dropWhile (· ≠ '.')).drop 1
  Nat.ofDigitChars 10 whole 0 + Nat.ofDigitChars 10 places 0 / 10 ^ places.length

/-- The number in front of the unit. -/
def shownNumber (t : Text) : ℚ := numeralValue (t.takeWhile (· ≠ ' '))

/-- The place of the unit among those of its system. -/
def shownUnit (u : StatsUnit) (t : Text) : Nat := u.symbols.idxOf ((t.dropWhile (· ≠ ' ')).drop 1)

/-- What is shown, in bytes. -/
def shownBytes (u : StatsUnit) (t : Text) : ℚ := shownNumber t * u.base ^ shownUnit u t

section

variable {n places : Nat} {t symbol : Text}

/-- A number is what its digits say. -/
theorem ofDigitChars_natText (n : Nat) : Nat.ofDigitChars 10 (natText n) 0 = n :=
  Nat.ofDigitChars_toDigits (by decide) (by decide)

/-- Zeros in front do not matter. -/
theorem ofDigitChars_natTextPadded (width n : Nat) :
    Nat.ofDigitChars 10 (natTextPadded width n) 0 = n := by
  rw [natTextPadded, Nat.ofDigitChars_append, Nat.ofDigitChars_replicate_zero, Nat.mul_zero,
    ofDigitChars_natText]

/-- A number that is not too long is padded to the length asked for. -/
theorem length_natTextPadded (hpos : 0 < places) (h : n < 10 ^ places) :
    (natTextPadded places n).length = places := by
  have hle : (natText n).length ≤ places := (Nat.length_toDigits_le_iff (by decide) hpos).2 h
  rw [natTextPadded, List.length_append, List.length_replicate]
  omega

/-- A text is read up to the first character that stops the reading. -/
theorem takeWhile_append_stop {p : Char → Bool} {c : Char} (ht : ∀ d ∈ t, p d = true) (hc : p c = false)
    (rest : Text) : (t ++ c :: rest).takeWhile p = t ∧ (t ++ c :: rest).dropWhile p = c :: rest := by
  constructor
  · rw [List.takeWhile_append_of_pos ht, List.takeWhile_cons_of_neg (by rw [hc]; exact Bool.false_ne_true),
      List.append_nil]
  · rw [List.dropWhile_append_of_pos ht, List.dropWhile_cons_of_neg (by rw [hc]; exact Bool.false_ne_true)]

/-- There are only digits in a number. -/
theorem ne_of_mem_natText {c d : Char} (hc : c ∈ natText n) (hd : d.isDigit = false) : c ≠ d := by
  rintro rfl
  exact Bool.eq_false_iff.1 hd (isDigit_of_mem_natText hc)

/-- A whole number is read back. -/
theorem numeralValue_natText (n : Nat) : numeralValue (natText n) = n := by
  have hdigits : ∀ c ∈ natText n, decide (c ≠ '.') = true := fun c hc =>
    decide_eq_true (ne_of_mem_natText hc (by decide))
  have htake : (natText n).takeWhile (· ≠ '.') = natText n := List.takeWhile_eq_self_iff.2 hdigits
  have hdrop : (natText n).dropWhile (· ≠ '.') = [] := List.dropWhile_eq_nil_iff.2 hdigits
  rw [numeralValue, htake, hdrop, ofDigitChars_natText]
  show (n : ℚ) + (0 : Nat) / 10 ^ 0 = n
  rw [Nat.cast_zero, zero_div, add_zero]

/-- A number with some decimal places is read back. -/
theorem numeralValue_fixed (x : Double) (places : Nat) :
    numeralValue (x.fixed places) = (x.scaled places : ℚ) / 10 ^ places := by
  unfold Double.fixed
  dsimp only
  split
  · rename_i hnone
    rw [numeralValue_natText, hnone, pow_zero, div_one]
  · rename_i hsome
    have hpow : Nat.pow 10 places = 10 ^ places := rfl
    have hrest : x.scaled places % 10 ^ places < 10 ^ places := Nat.mod_lt _ (by positivity)
    obtain ⟨htake, hdrop⟩ := takeWhile_append_stop (p := (· ≠ '.')) (c := '.')
      (t := natText (x.scaled places / 10 ^ places))
      (fun c hc => decide_eq_true (ne_of_mem_natText hc (by decide))) (by decide)
      (natTextPadded places (x.scaled places % 10 ^ places))
    rw [hpow, numeralValue, htake, hdrop, List.drop_succ_cons, List.drop_zero, ofDigitChars_natText,
      ofDigitChars_natTextPadded, length_natTextPadded (Nat.pos_of_ne_zero hsome) hrest]
    -- the part in front of the point and the part behind it make the whole
    have hsplit : ((10 ^ places * (x.scaled places / 10 ^ places) + x.scaled places % 10 ^ places : Nat) : ℚ)
        = x.scaled places := by rw [Nat.div_add_mod]
    rw [← hsplit]
    push_cast
    field_simp

/-- There is no blank in a number. -/
theorem ne_space_of_mem_fixed {x : Double} {c : Char} (h : c ∈ x.fixed places) : c ≠ ' ' := by
  unfold Double.fixed at h
  dsimp only at h
  split at h
  · exact ne_of_mem_natText h (by decide)
  · rcases List.mem_append.1 h with h | h
    · exact ne_of_mem_natText h (by decide)
    · rcases List.mem_cons.1 h with rfl | h
      · decide
      · rcases List.mem_append.1 h with h | h
        · rw [List.eq_of_mem_replicate h]
          decide
        · exact ne_of_mem_natText h (by decide)

/-- What stands in front of the first blank is the number, and what stands behind it the unit. -/
theorem shown_append (ht : ∀ c ∈ t, c ≠ ' ') (u : StatsUnit) (symbol : Text) :
    shownNumber (t ++ ' ' :: symbol) = numeralValue t ∧
      shownUnit u (t ++ ' ' :: symbol) = u.symbols.idxOf symbol := by
  obtain ⟨htake, hdrop⟩ := takeWhile_append_stop (p := (· ≠ ' ')) (c := ' ')
    (fun c hc => decide_eq_true (ht c hc)) (by decide) symbol
  rw [shownNumber, shownUnit, htake, hdrop]
  exact ⟨rfl, rfl⟩

end

/-! ## The size in each unit

The size in a unit is the size in the unit before, divided by the base and rounded.  A bound with few
bits survives the rounding, and all roundings together change the size by a few parts in 2^53. -/

/-- A byte count in the `k`-th unit, rounded at each step. -/
def sizeIn (base bytes : Nat) : Nat → ℚ
  | 0 => nearestDouble bytes
  | k + 1 => nearestDouble (sizeIn base bytes k / base)

section

variable {base bytes bytes' k m : Nat} {s s' : ℚ}

/-- No size is negative. -/
theorem sizeIn_nonneg (base bytes k : Nat) : 0 ≤ sizeIn base bytes k := by
  cases k with
  | zero => exact nearestDouble_nonneg _
  | succ k => exact nearestDouble_nonneg _

/-- Rounding at each step keeps the order of counts. -/
theorem sizeIn_mono (base : Nat) (h : bytes ≤ bytes') (k : Nat) : sizeIn base bytes k ≤ sizeIn base bytes' k := by
  induction k with
  | zero => exact nearestDouble_mono (Nat.cast_nonneg _) (Nat.cast_le.2 h)
  | succ k ih =>
    have hnonneg := sizeIn_nonneg base bytes k
    exact nearestDouble_mono (by positivity) (div_le_div_of_nonneg_right ih (Nat.cast_nonneg _))

/-- A bound that 53 bits can hold in every unit holds after rounding. -/
theorem le_sizeIn {z : ℤ} (hbase : 0 < base) (hm : m * base ^ k ≤ 2 ^ 53)
    (h : m * 2 ^ z * (base : ℚ) ^ k ≤ bytes) : m * 2 ^ z ≤ sizeIn base bytes k := by
  have hpos : (0 : ℚ) < base := Nat.cast_pos.2 hbase
  induction k generalizing m with
  | zero =>
    rw [pow_zero, mul_one] at h
    rw [Nat.pow_zero, Nat.mul_one] at hm
    rw [← nearestDouble_of_bits hm]
    exact nearestDouble_mono (mul_nonneg (Nat.cast_nonneg _) (zpow_pos (by norm_num) z).le) h
  -- one division less: the bound is larger by the base, and still short enough
  | succ k ih =>
    have hbits : m ≤ 2 ^ 53 := Nat.le_trans (Nat.le_mul_of_pos_right m (Nat.pow_pos hbase)) hm
    have hbefore : ((m * base : Nat) : ℚ) * 2 ^ z ≤ sizeIn base bytes k := by
      refine ih ?_ ?_
      · rw [Nat.mul_assoc, ← Nat.pow_succ']
        exact hm
      · refine le_trans (le_of_eq ?_) h
        rw [pow_succ, Nat.cast_mul]
        ring
    rw [← nearestDouble_of_bits hbits]
    refine nearestDouble_mono (mul_nonneg (Nat.cast_nonneg _) (zpow_pos (by norm_num) z).le) ?_
    rw [le_div_iff₀ hpos]
    refine le_trans (le_of_eq ?_) hbefore
    rw [Nat.cast_mul]
    ring

/-- Rounding makes a size larger by a few parts in 2^53 at the most. -/
theorem sizeIn_le (hbase : 0 < base) (bytes k : Nat) :
    sizeIn base bytes k ≤ bytes / (base : ℚ) ^ k * (1 + 1 / 2 ^ 53) ^ (k + 1) := by
  have hpos : (0 : ℚ) < base := Nat.cast_pos.2 hbase
  induction k with
  | zero =>
    rw [pow_zero, div_one, zero_add, pow_one]
    exact nearestDouble_le (Nat.cast_nonneg _)
  | succ k ih =>
    calc sizeIn base bytes (k + 1) ≤ sizeIn base bytes k / base * (1 + 1 / 2 ^ 53) :=
          nearestDouble_le (div_nonneg (sizeIn_nonneg base bytes k) hpos.le)
      _ ≤ bytes / (base : ℚ) ^ k * (1 + 1 / 2 ^ 53) ^ (k + 1) / base * (1 + 1 / 2 ^ 53) :=
          mul_le_mul_of_nonneg_right (div_le_div_of_nonneg_right ih hpos.le) (by norm_num)
      _ = bytes / (base : ℚ) ^ (k + 1) * (1 + 1 / 2 ^ 53) ^ (k + 1 + 1) := by
          rw [pow_succ (base : ℚ) k, pow_succ _ (k + 1)]
          field_simp

/-- So a size of less than 2^50 bytes stays below a bound that it is a byte short of. -/
theorem sizeIn_lt {bound : ℚ} (hbase : 0 < base) (hk : k ≤ 4) (hm : m ≤ 2 ^ 50)
    (hbound : bound * (base : ℚ) ^ k = m) (h : bytes < m) : sizeIn base bytes k < bound := by
  have hpow : (0 : ℚ) < (base : ℚ) ^ k := pow_pos (Nat.cast_pos.2 hbase) k
  have hfew : (1 + 1 / 2 ^ 53 : ℚ) ^ (k + 1) ≤ (1 + 1 / 2 ^ 53) ^ 5 :=
    pow_le_pow_right₀ (by norm_num) (by omega)
  have hshort : (bytes : ℚ) ≤ m - 1 := by
    rw [le_sub_iff_add_le]
    exact_mod_cast h
  have hmost : (m : ℚ) ≤ 2 ^ 50 := by exact_mod_cast hm
  have hsum : (1 + 1 / 2 ^ 53 : ℚ) ^ 5 ≤ 1 + 6 / 2 ^ 53 := by norm_num
  refine lt_of_le_of_lt (sizeIn_le hbase bytes k) ?_
  rw [div_mul_eq_mul_div, div_lt_iff₀ hpow, hbound]
  calc (bytes : ℚ) * (1 + 1 / 2 ^ 53) ^ (k + 1) ≤ bytes * (1 + 6 / 2 ^ 53) :=
        mul_le_mul_of_nonneg_left (hfew.trans hsum) (Nat.cast_nonneg _)
    _ ≤ (m - 1) * (1 + 6 / 2 ^ 53) := mul_le_mul_of_nonneg_right hshort (by norm_num)
    _ < m := by linarith

end

/-! ## The number that is printed -/

/-- A number rounded to some decimal places. -/
def rounded (places : Nat) (s : ℚ) : ℚ := nearestWhole (s * 10 ^ places) / 10 ^ places

/-- How many decimal places a size is printed with. -/
def placesOf (s : ℚ) : Nat := if 100 ≤ s then 0 else if 10 ≤ s then 1 else 2

/-- A size as it is printed. -/
def printed (s : ℚ) : ℚ := rounded (placesOf s) s

section

variable {base places m : Nat} {s s' : ℚ}

/-- Rounding keeps the order of numbers. -/
theorem rounded_mono (places : Nat) (hs : 0 ≤ s) (h : s ≤ s') : rounded places s ≤ rounded places s' := by
  have hpow : (0 : ℚ) < 10 ^ places := by positivity
  have hwhole := nearestWhole_mono (mul_nonneg hs hpow.le) (mul_le_mul_of_nonneg_right h hpow.le)
  exact div_le_div_of_nonneg_right (Nat.cast_le.2 hwhole) hpow.le

/-- A whole number stays as it is. -/
theorem rounded_natCast (places m : Nat) : rounded places m = m := by
  have hpow : (0 : ℚ) < 10 ^ places := by positivity
  have hwhole : (m : ℚ) * 10 ^ places = ((m * 10 ^ places : Nat) : ℚ) := by push_cast; rfl
  rw [rounded, hwhole, nearestWhole_natCast, ← hwhole, mul_div_assoc, div_self hpow.ne', mul_one]

/-- Whole numbers bound what is rounded as they bound the number itself. -/
theorem le_rounded (places : Nat) (h : (m : ℚ) ≤ s) : (m : ℚ) ≤ rounded places s := by
  rw [← rounded_natCast places m]
  exact rounded_mono places (Nat.cast_nonneg _) h

/-- Whole numbers bound what is rounded from above, too. -/
theorem rounded_le (places : Nat) (hs : 0 ≤ s) (h : s ≤ m) : rounded places s ≤ m := by
  rw [← rounded_natCast places m]
  exact rounded_mono places hs h

/-- A larger size is printed as no smaller a number, though with fewer places. -/
theorem printed_mono (hs : 0 ≤ s) (h : s ≤ s') : printed s ≤ printed s' := by
  -- where the places differ, 10 or 100 lies between the two
  have hmark : ∀ m : Nat, s < m → (m : ℚ) ≤ s' → printed s ≤ printed s' := fun m hlt hle =>
    (rounded_le _ hs hlt.le).trans (le_rounded _ hle)
  have hsame : placesOf s = placesOf s' → printed s ≤ printed s' := fun heq => by
    rw [printed, printed, heq]
    exact rounded_mono _ hs h
  rcases lt_or_ge s 10 with hten | hten
  · rcases lt_or_ge s' 10 with hten' | hten'
    · refine hsame ?_
      unfold placesOf
      rw [if_neg (by linarith), if_neg (by linarith), if_neg (by linarith), if_neg (by linarith)]
    · exact hmark 10 hten hten'
  · rcases lt_or_ge s 100 with hhundred | hhundred
    · rcases lt_or_ge s' 100 with hhundred' | hhundred'
      · refine hsame ?_
        unfold placesOf
        rw [if_neg (by linarith), if_pos hten, if_neg (by linarith), if_pos (by linarith)]
      · exact hmark 100 hhundred hhundred'
    · refine hsame ?_
      unfold placesOf
      rw [if_pos hhundred, if_pos (by linarith)]

/-- **The number reaches the base** from a half below on. -/
theorem printed_eq_base_iff (hbase : 100 < base) (heven : Even base) (hs : 0 ≤ s) (h : s < base) :
    printed s = base ↔ (base : ℚ) - 1 / 2 ≤ s := by
  have hlarge : (101 : ℚ) ≤ base := by exact_mod_cast hbase
  -- with decimal places a size is far from the base
  rcases lt_or_ge s 100 with hsmall | hthree
  · have hle : printed s ≤ 100 := rounded_le (m := 100) _ hs hsmall.le
    constructor
    · intro heq
      linarith
    · intro hge
      linarith
  · have hplaces : printed s = nearestWhole s := by
      rw [printed, placesOf, if_pos hthree, rounded, pow_zero, mul_one, div_one]
    have hmost : nearestWhole s ≤ base := by
      rw [← nearestWhole_natCast base]
      exact nearestWhole_mono hs h.le
    rw [hplaces, Nat.cast_inj, ← le_nearestWhole_iff hs heven]
    exact ⟨fun heq => heq.ge, fun hge => Nat.le_antisymm hmost hge⟩

end

/-! ## The unit

A base has to be larger than 100, even, and small in its powers.  The rest follows for both bases at
once, from the first unit in which the size is less than the base. -/

/-- What a base has to be like for all that follows. -/
structure IsBase (base : Nat) : Prop where
  large : 100 < base
  even : Even base
  small : base ^ 5 ≤ 2 ^ 50

/-- Both 1000 and 1024 are such bases. -/
theorem StatsUnit.isBase (u : StatsUnit) : IsBase u.base := by
  cases u with
  | decimal => exact ⟨by decide, by decide, by decide⟩
  | binary => exact ⟨by decide, by decide, by decide⟩

/-- The size is less than the base in the `k`-th of six units and in none before it.  `k` is six if it is
    less than the base in none of them. -/
structure IsLevel (base bytes k : Nat) : Prop where
  le : k ≤ 6
  before : ∀ j < k, (base : ℚ) ≤ sizeIn base bytes j
  lt : k < 6 → sizeIn base bytes k < base

/-- The number that is shown. -/
def numberAt (base bytes k : Nat) : ℚ :=
  if k = 0 then bytes
  else if k < 6 then printed (sizeIn base bytes k)
  else rounded 1 (nearestDouble (sizeIn base bytes 6 * base))

section

variable {base bytes bytes' k k' : Nat}

/-- A base is positive. -/
theorem IsBase.pos (hb : IsBase base) : 0 < base := Nat.lt_trans (by decide) hb.large

/-- The powers of a base up to the fifth are small. -/
theorem IsBase.pow_le (hb : IsBase base) (hk : k ≤ 5) : base ^ k ≤ 2 ^ 50 :=
  Nat.le_trans (Nat.pow_le_pow_right hb.pos hk) hb.small

/-- A size reaches the base only if the bytes reach the next unit. -/
theorem base_le_sizeIn_iff (hb : IsBase base) (hk : k ≤ 4) :
    (base : ℚ) ≤ sizeIn base bytes k ↔ base ^ (k + 1) ≤ bytes := by
  have hfits := hb.pow_le (k := k + 1) (by omega)
  constructor
  · intro h
    by_contra hlt
    have hbound : (base : ℚ) * (base : ℚ) ^ k = (base ^ (k + 1) : Nat) := by
      rw [Nat.cast_pow, pow_succ, mul_comm]
    exact absurd h (not_le.2 (sizeIn_lt hb.pos hk hfits hbound (Nat.lt_of_not_le hlt)))
  · intro h
    have hone : (base : ℚ) = base * 2 ^ (0 : ℤ) := by rw [zpow_zero, mul_one]
    rw [hone]
    refine le_sizeIn hb.pos ?_ ?_
    · rw [← Nat.pow_succ']
      exact Nat.le_trans hfits (by norm_num)
    · rw [← hone, ← pow_succ']
      exact_mod_cast h

/-- A size is within a half of the base only if the bytes are. -/
theorem half_le_sizeIn_iff (hb : IsBase base) (hpos : k ≠ 0) (hk : k ≤ 4) :
    (base : ℚ) - 1 / 2 ≤ sizeIn base bytes k ↔ (2 * base - 1) * base ^ k ≤ 2 * bytes := by
  have hbase := hb.pos
  have hfits := hb.pow_le (k := k + 1) (by omega)
  have hodd : ((2 * base - 1 : Nat) : ℚ) = 2 * base - 1 := by
    rw [Nat.cast_sub (by omega)]
    push_cast
    rfl
  constructor
  · intro h
    -- the bound is a half of a whole number, since the base is even, and a size that is a quotient
    -- below it is rounded to a double below it as well
    by_contra hlt
    obtain ⟨half, hhalf⟩ := hb.even
    obtain ⟨j, rfl⟩ := Nat.exists_eq_add_one_of_ne_zero hpos
    have hdouble : 2 * ((2 * base - 1) * (half * base ^ j)) = (2 * base - 1) * base ^ (j + 1) := by
      rw [pow_succ, hhalf]
      ring
    have hle : (2 * base - 1) * base ^ (j + 1) ≤ 2 * base ^ (j + 1 + 1) := by
      rw [pow_succ base (j + 1), Nat.mul_comm (base ^ (j + 1)), ← Nat.mul_assoc]
      exact Nat.mul_le_mul_right _ (Nat.sub_le _ _)
    have hbound : ((base : ℚ) - 1 / 2) * (base : ℚ) ^ (j + 1) =
        ((2 * base - 1) * (half * base ^ j) : Nat) := by
      have hcast : (2 : ℚ) * ((2 * base - 1) * (half * base ^ j) : Nat) =
          (2 * base - 1) * (base : ℚ) ^ (j + 1) := by
        rw [← hodd]
        exact_mod_cast hdouble
      linarith
    exact absurd h (not_le.2 (sizeIn_lt hbase hk (by omega) hbound (by omega)))
  · intro h
    have hone : (base : ℚ) - 1 / 2 = (2 * base - 1 : Nat) * 2 ^ (-1 : ℤ) := by
      rw [hodd, zpow_neg_one]
      ring
    have hle : (2 * base - 1) * base ^ k ≤ 2 * base ^ (k + 1) := by
      rw [pow_succ, Nat.mul_comm (base ^ k), ← Nat.mul_assoc]
      exact Nat.mul_le_mul_right _ (Nat.sub_le _ _)
    rw [hone]
    refine le_sizeIn hbase (by omega) ?_
    have hcast : ((2 * base - 1 : Nat) : ℚ) * (base : ℚ) ^ k ≤ 2 * bytes := by exact_mod_cast h
    rw [zpow_neg_one]
    linarith

/-- A larger count is shown in no earlier unit. -/
theorem IsLevel.mono (h : IsLevel base bytes k) (h' : IsLevel base bytes' k') (hle : bytes ≤ bytes') :
    k ≤ k' := by
  by_contra hlt
  have hk' : k' < k := Nat.lt_of_not_le hlt
  have hbefore := h.before k' hk'
  have hnow := h'.lt (Nat.lt_of_lt_of_le hk' h.le)
  exact absurd (hbefore.trans (sizeIn_mono base hle k')) (not_le.2 hnow)

/-- In the unit behind one in which it reaches the base, a size is one or more. -/
theorem one_le_sizeIn (hbase : 0 < base) (h : (base : ℚ) ≤ sizeIn base bytes k) :
    1 ≤ sizeIn base bytes (k + 1) := by
  have hone : nearestDouble 1 = 1 := by
    have hbits := nearestDouble_of_bits (m := 1) (by norm_num) 0
    rw [Nat.cast_one, zpow_zero, mul_one] at hbits
    exact hbits
  rw [← hone]
  refine nearestDouble_mono (by norm_num) ?_
  rw [le_div_iff₀ (Nat.cast_pos.2 hbase), one_mul]
  exact h

/-- In its unit a size is one or more, but for the first unit. -/
theorem IsLevel.one_le_sizeIn (h : IsLevel base bytes k) (hbase : 0 < base) (hpos : k ≠ 0) :
    1 ≤ sizeIn base bytes k := by
  obtain ⟨j, rfl⟩ := Nat.exists_eq_succ_of_ne_zero hpos
  exact TunnelBoard.one_le_sizeIn hbase (h.before j (Nat.lt_succ_self j))

/-- A count of bytes is shown as it is. -/
theorem numberAt_zero (base bytes : Nat) : numberAt base bytes 0 = bytes := if_pos rfl

/-- In the other units the size is printed. -/
theorem numberAt_of_lt (hpos : k ≠ 0) (hk : k < 6) :
    numberAt base bytes k = printed (sizeIn base bytes k) := by
  rw [numberAt, if_neg hpos, if_pos hk]

/-- What is too large for all units is shown in the last one. -/
theorem numberAt_six (base bytes : Nat) :
    numberAt base bytes 6 = rounded 1 (nearestDouble (sizeIn base bytes 6 * base)) := rfl

/-- A size too large for all units is shown as the base at least. -/
theorem IsLevel.base_le_number (h : IsLevel base bytes 6) (hb : IsBase base) :
    (base : ℚ) ≤ numberAt base bytes 6 := by
  have hbits : base ≤ 2 ^ 53 := by
    have hsmall := hb.pow_le (k := 1) (by omega)
    rw [pow_one] at hsmall
    exact Nat.le_trans hsmall (by norm_num)
  have hexact : nearestDouble (base : ℚ) = base := by
    have hdouble := nearestDouble_of_bits hbits 0
    rw [zpow_zero, mul_one] at hdouble
    exact hdouble
  rw [numberAt_six]
  refine le_rounded _ ?_
  rw [← hexact]
  refine nearestDouble_mono (Nat.cast_nonneg _) ?_
  rw [hexact]
  exact le_mul_of_one_le_left (Nat.cast_nonneg _) (h.one_le_sizeIn hb.pos (by decide))

/-- Behind the first unit the number is one or more. -/
theorem IsLevel.one_le_number (h : IsLevel base bytes k) (hb : IsBase base) (hpos : k ≠ 0) :
    1 ≤ numberAt base bytes k := by
  rcases Nat.lt_or_eq_of_le h.le with hk | rfl
  · have hone := le_rounded (m := 1) (placesOf (sizeIn base bytes k))
      (by exact_mod_cast h.one_le_sizeIn hb.pos hpos)
    rw [numberAt_of_lt hpos hk]
    exact_mod_cast hone
  · have hbase : (1 : ℚ) ≤ base := by exact_mod_cast hb.pos
    exact hbase.trans (h.base_le_number hb)

/-- The number is at most the base, but for a size too large for all units. -/
theorem IsLevel.number_le_base (h : IsLevel base bytes k) (hb : IsBase base) (hk : k < 6) :
    numberAt base bytes k ≤ base := by
  rcases Nat.eq_zero_or_pos k with rfl | hpos
  · rw [numberAt_zero, Nat.cast_le]
    by_contra hlt
    have hle : base ^ (0 + 1) ≤ bytes := by
      rw [zero_add, pow_one]
      omega
    exact absurd ((base_le_sizeIn_iff hb (by decide)).2 hle) (not_le.2 (h.lt hk))
  · rw [numberAt_of_lt hpos.ne' hk]
    exact rounded_le _ (sizeIn_nonneg _ _ _) (h.lt hk).le

/-- In one unit a larger count has no smaller number. -/
theorem numberAt_mono (base k : Nat) (hle : bytes ≤ bytes') : numberAt base bytes k ≤ numberAt base bytes' k := by
  have hsize := sizeIn_mono base hle k
  unfold numberAt
  -- as a count of bytes, in one of the units, or too large for all of them
  split
  · exact Nat.cast_le.2 hle
  · split
    · exact printed_mono (sizeIn_nonneg _ _ _) hsize
    · have hlast := sizeIn_mono base hle 6
      have hnonneg := sizeIn_nonneg base bytes 6
      exact rounded_mono 1 (nearestDouble_nonneg _)
        (nearestDouble_mono (by positivity) (mul_le_mul_of_nonneg_right hlast (Nat.cast_nonneg _)))

/-- What is shown in the `k`-th unit is at least one of that unit, and at least the next one if there is no
    unit for it. -/
theorem IsLevel.pow_le_worth (h : IsLevel base bytes k) (hb : IsBase base) (hpos : k ≠ 0) :
    (base : ℚ) ^ k ≤ numberAt base bytes k * (base : ℚ) ^ min k 5 := by
  have hpow : (0 : ℚ) < (base : ℚ) ^ min k 5 := pow_pos (Nat.cast_pos.2 hb.pos) _
  rcases Nat.lt_or_eq_of_le h.le with hk | rfl
  · have hmin : min k 5 = k := by omega
    rw [hmin] at hpow ⊢
    exact le_mul_of_one_le_left hpow.le (h.one_le_number hb hpos)
  · calc (base : ℚ) ^ 6 = base * (base : ℚ) ^ min 6 5 := pow_succ' _ _
      _ ≤ numberAt base bytes 6 * (base : ℚ) ^ min 6 5 :=
        mul_le_mul_of_nonneg_right (h.base_le_number hb) hpow.le

/-- What is shown of a larger count is no less. -/
theorem IsLevel.worth_mono (h : IsLevel base bytes k) (h' : IsLevel base bytes' k') (hb : IsBase base)
    (hle : bytes ≤ bytes') :
    numberAt base bytes k * (base : ℚ) ^ min k 5 ≤ numberAt base bytes' k' * (base : ℚ) ^ min k' 5 := by
  have hone : (1 : ℚ) ≤ base := by exact_mod_cast hb.pos
  have hpow : ∀ j, (0 : ℚ) ≤ (base : ℚ) ^ j := fun j => pow_nonneg (Nat.cast_nonneg _) j
  rcases Nat.lt_or_eq_of_le (h.mono h' hle) with hlt | rfl
  · have hk : k < 6 := Nat.lt_of_lt_of_le hlt h'.le
    have hmin : min k 5 = k := by omega
    calc numberAt base bytes k * (base : ℚ) ^ min k 5 ≤ base * (base : ℚ) ^ k := by
          rw [hmin]
          exact mul_le_mul_of_nonneg_right (h.number_le_base hb hk) (hpow k)
      _ = (base : ℚ) ^ (k + 1) := (pow_succ' _ _).symm
      _ ≤ (base : ℚ) ^ k' := pow_le_pow_right₀ hone hlt
      _ ≤ numberAt base bytes' k' * (base : ℚ) ^ min k' 5 := h'.pow_le_worth hb (by omega)
  · exact mul_le_mul_of_nonneg_right (numberAt_mono base k hle) (hpow _)

end

/-! ## The text

The program divides until the size is less than the base.  So the unit it shows is that of the section
above, and what is read back of the text is the number there. -/

section

variable {base : Nat} {last symbol : Text} {x : Double}

/-- The number of places is chosen by the size. -/
theorem placesFor_eq (x : Double) : placesFor x = placesOf x.value := by
  have hlt : ∀ n : Nat, (!x.ltNat n) = true ↔ (n : ℚ) ≤ x.value := fun n => by
    rw [Bool.not_eq_true', ← Bool.not_eq_true, Double.ltNat_iff, not_lt]
  unfold placesFor placesOf
  rw [if_congr (hlt 100) rfl (if_congr (hlt 10) rfl rfl)]
  rfl

/-- A size divided by the base some times. -/
def divided (base : Nat) (x : Double) (k : Nat) : Double := (·.divNat base)^[k] x

/-- Dividing again and again gives the sizes. -/
theorem value_divided (hbase : 0 < base) (bytes k : Nat) :
    (divided base (.ofNat bytes) k).value = sizeIn base bytes k := by
  induction k with
  | zero => exact Double.value_ofNat bytes
  | succ k ih =>
    rw [divided, Function.iterate_succ_apply', Double.value_divNat _ hbase]
    exact congrArg (fun s : ℚ => nearestDouble (s / base)) ih

/-- The unit is the first one in which the size is less than the base. -/
theorem sizeText_eq (base : Nat) (last : Text) (symbols : List Text) (x : Double) :
    ∃ k ≤ symbols.length, (∀ j < k, (divided base x j).ltNat base = false) ∧
      ((∃ symbol, symbols[k]? = some symbol ∧ (divided base x k).ltNat base = true ∧
        sizeText base last x symbols =
          (divided base x k).fixed (placesFor (divided base x k)) ++ ' ' :: symbol) ∨
        (k = symbols.length ∧
          sizeText base last x symbols = ((divided base x k).mulNat base).fixed 1 ++ ' ' :: last)) := by
  induction symbols generalizing x with
  | nil => exact ⟨0, Nat.le_refl 0, fun j hj => absurd hj (Nat.not_lt_zero j), Or.inr ⟨rfl, rfl⟩⟩
  -- this is the unit, or it is one of the others, which are looked at with the next size
  | cons symbol symbols ih =>
    cases hlt : x.ltNat base with
    | true =>
      refine ⟨0, Nat.zero_le _, fun j hj => absurd hj (Nat.not_lt_zero j), Or.inl ⟨symbol, rfl, hlt, ?_⟩⟩
      rw [sizeText, hlt]
      rfl
    | false =>
      obtain ⟨k, hk, hbefore, hshown⟩ := ih (x.divNat base)
      have hrest : sizeText base last x (symbol :: symbols) = sizeText base last (x.divNat base) symbols := by
        rw [sizeText, hlt]
        rfl
      refine ⟨k + 1, Nat.succ_le_succ hk, fun j hj => ?_, ?_⟩
      · cases j with
        | zero => exact hlt
        | succ j => exact hbefore j (Nat.lt_of_succ_lt_succ hj)
      · rw [hrest]
        exact hshown.imp id fun ⟨hlength, htext⟩ => ⟨congrArg Nat.succ hlength, htext⟩

/-- What is read back is the size, rounded to the places that are shown. -/
theorem numeralValue_fixed_eq (x : Double) (places : Nat) :
    numeralValue (x.fixed places) = rounded places x.value := by
  rw [numeralValue_fixed, Double.scaled_eq, rounded]

end

section

variable {u : StatsUnit} {bytes bytes' : Nat}

/-- The units have different symbols, so each is found in its place. -/
theorem StatsUnit.idxOf_symbols {k : Nat} {symbol : Text} (h : u.symbols[k]? = some symbol) :
    u.symbols.idxOf symbol = k := by
  have hnodup : u.symbols.Nodup := by
    cases u with
    | decimal => decide
    | binary => decide
  obtain ⟨hk, rfl⟩ := List.getElem?_eq_some_iff.1 h
  exact hnodup.idxOf_getElem k hk

/-- There are six units. -/
theorem StatsUnit.length_symbols (u : StatsUnit) : u.symbols.length = 6 := by
  cases u with
  | decimal => rfl
  | binary => rfl

/-- The first one is the byte. -/
theorem StatsUnit.getElem?_zero (u : StatsUnit) : u.symbols[0]? = some ['B'] := by
  cases u with
  | decimal => rfl
  | binary => rfl

/-- The last one is for all that is too large. -/
theorem StatsUnit.getElem?_last (u : StatsUnit) :
    u.symbols[5]? = some (u.symbols.getLast?.getD []) := by
  cases u with
  | decimal => rfl
  | binary => rfl

/-- What is shown of a byte count, by the unit in which its size is less than the base. -/
theorem shown_bytesText (bytes : Nat) (u : StatsUnit) :
    ∃ k, IsLevel u.base bytes k ∧ shownNumber (bytesText bytes u) = numberAt u.base bytes k ∧
      shownUnit u (bytesText bytes u) = min k 5 := by
  have hb := u.isBase
  have hreaches : ∀ k, (divided u.base (.ofNat bytes) k).ltNat u.base = false →
      (u.base : ℚ) ≤ sizeIn u.base bytes k := fun k h => by
    rw [← value_divided hb.pos, ← not_lt, ← Double.ltNat_iff, h]
    exact Bool.false_ne_true
  have hless : ∀ k, (divided u.base (.ofNat bytes) k).ltNat u.base = true →
      sizeIn u.base bytes k < u.base := fun k h => by
    rw [← value_divided hb.pos, ← Double.ltNat_iff]
    exact h
  have hsix := u.length_symbols
  unfold bytesText
  -- bytes; one of the other units; or the last one for want of a larger one
  cases hfirst : (Double.ofNat bytes).ltNat u.base with
  | true =>
    obtain ⟨hnumber, hunit⟩ := shown_append (t := natText bytes)
      (fun c hc => ne_of_mem_natText hc (by decide)) u ['B']
    refine ⟨0, ⟨Nat.zero_le _, fun j hj => absurd hj (Nat.not_lt_zero j), fun _ => hless 0 hfirst⟩, ?_, ?_⟩
    · rw [numberAt_zero, ← numeralValue_natText]
      exact hnumber
    · rw [Nat.zero_min, ← StatsUnit.idxOf_symbols u.getElem?_zero]
      exact hunit
  | false =>
    rw [if_neg Bool.false_ne_true]
    obtain ⟨k, hk, hbefore, ⟨symbol, hsymbol, hlt, htext⟩ | ⟨hlast, htext⟩⟩ :=
      sizeText_eq u.base (u.symbols.getLast?.getD []) u.symbols (.ofNat bytes)
    · have hk' : k < 6 := hsix ▸ (List.getElem?_eq_some_iff.1 hsymbol).1
      have hpos : k ≠ 0 := by
        rintro rfl
        exact Bool.false_ne_true (hfirst.symm.trans hlt)
      obtain ⟨hnumber, hunit⟩ := shown_append (fun c hc => ne_space_of_mem_fixed hc) u symbol
      refine ⟨k, ⟨hk'.le, fun j hj => hreaches j (hbefore j hj), fun _ => hless k hlt⟩, ?_, ?_⟩
      · rw [htext, hnumber, numeralValue_fixed_eq, placesFor_eq, value_divided hb.pos,
          numberAt_of_lt hpos hk']
        rfl
      · rw [htext, hunit, StatsUnit.idxOf_symbols hsymbol]
        omega
    · rw [hsix] at hlast
      subst hlast
      obtain ⟨hnumber, hunit⟩ := shown_append (fun c hc => ne_space_of_mem_fixed hc) u
        (u.symbols.getLast?.getD [])
      refine ⟨6, ⟨Nat.le_refl 6, fun j hj => hreaches j (hbefore j hj), fun h => absurd h (Nat.lt_irrefl 6)⟩,
        ?_, ?_⟩
      · rw [htext, hnumber, numeralValue_fixed_eq, Double.value_mulNat, value_divided hb.pos, numberAt_six]
      · rw [htext, hunit, StatsUnit.idxOf_symbols u.getElem?_last]
        rfl

/-- **Byte counts are shown in the right unit, but for the last half of one**: the unit is the largest of
    which there is one, and its number is at least one and at most the base.  It is the base, and not less,
    from a half below the next unit on: there is then one of the next unit only after rounding.  Of two
    counts the larger one is never shown as less. -/
theorem right_unit_unless_rounded_up (bytes : Nat) (u : StatsUnit) :
    let number := shownNumber (bytesText bytes u)
    let k := shownUnit u (bytesText bytes u)
    (k = 0 → number = bytes ∧ bytes < u.base) ∧
      (k ≠ 0 → 1 ≤ number ∧ u.base ^ k ≤ bytes) ∧
      (k ≠ 0 → k ≠ 5 → number ≤ u.base ∧ bytes < u.base ^ (k + 1) ∧
        (number = u.base ↔ (2 * u.base - 1) * u.base ^ k ≤ 2 * bytes)) ∧
      k ≤ 5 ∧
      ∀ bytes', bytes ≤ bytes' → shownBytes u (bytesText bytes u) ≤ shownBytes u (bytesText bytes' u) := by
  have hb := u.isBase
  -- the level at which dividing stops, from which number and unit are made
  obtain ⟨level, hlevel, hnumber, hunit⟩ := shown_bytesText bytes u
  dsimp only
  rw [hnumber, hunit]
  have hle := hlevel.le
  refine ⟨fun hzero => ?_, fun hpos => ?_, fun hpos hlast => ?_, Nat.min_le_right _ _, fun bytes' hbytes => ?_⟩
  · obtain rfl : level = 0 := by omega
    have hless : ¬ u.base ^ (0 + 1) ≤ bytes := fun hreach =>
      absurd ((base_le_sizeIn_iff hb (by decide)).2 hreach) (not_le.2 (hlevel.lt (by decide)))
    rw [zero_add, pow_one] at hless
    exact ⟨numberAt_zero _ _, Nat.lt_of_not_le hless⟩
  · obtain ⟨j, hj⟩ := Nat.exists_eq_add_one_of_ne_zero hpos
    have hbefore := hlevel.before j (by omega)
    rw [hj]
    exact ⟨hlevel.one_le_number hb (by omega), (base_le_sizeIn_iff hb (by omega)).1 hbefore⟩
  · have hmin : min level 5 = level := by omega
    have hsix : level < 6 := by omega
    rw [hmin] at hpos hlast ⊢
    have hlt := hlevel.lt hsix
    have hless : ¬ u.base ^ (level + 1) ≤ bytes := fun hreach =>
      absurd ((base_le_sizeIn_iff hb (by omega)).2 hreach) (not_le.2 hlt)
    refine ⟨hlevel.number_le_base hb hsix, Nat.lt_of_not_le hless, ?_⟩
    -- the only way to print the base is to round up to it
    rw [numberAt_of_lt hpos hsix, printed_eq_base_iff hb.large hb.even (sizeIn_nonneg _ _ _) hlt]
    exact half_le_sizeIn_iff hb hpos (by omega)
  · obtain ⟨level', hlevel', hnumber', hunit'⟩ := shown_bytesText bytes' u
    rw [shownBytes, shownBytes, hnumber, hunit, hnumber', hunit']
    exact hlevel.worth_mono hlevel' hb hbytes

/-- A count just below a million is shown as a thousand thousands. -/
theorem thousand_kilobytes_shown :
    let line := bytesText 999999 .decimal
    line = "1000 kB".toList ∧ shownUnit .decimal line = 1 ∧ shownNumber line = 1000 ∧
      ¬ shownNumber line < StatsUnit.decimal.base := by
  decide +kernel

end

end TunnelBoard
