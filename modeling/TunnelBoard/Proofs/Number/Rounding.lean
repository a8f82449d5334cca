import Mathlib.Data.Int.Log
import Mathlib.Data.Rat.Floor
import Mathlib.Tactic.FieldSimp
import Mathlib.Tactic.Linarith
import Mathlib.Tactic.Positivity
import Mathlib.Tactic.Ring
import TunnelBoard.Number.Double
/-
  Rounding to whole numbers and to doubles.

  A ratio is rounded to the nearest whole number, a tie to the even one, and it is a matter of the
  ratio alone how (`roundDiv_eq_nearestWhole`).  A double is a whole number of the units of its last
  bit, of which a number has between 2^52 and 2^53 (`unitOf_bounds`).  So rounding to doubles keeps
  the order of numbers, across the powers of two at which the unit changes as well; it keeps what 53
  bits can hold, and it makes nothing larger by more than one part in 2^53.  Each operation of the
  model rounds its exact result in this way, once (`Double.value_ofQuotient`).

  The model calculates with whole numbers only: a double is a mantissa and an exponent, and a quotient
  is scaled by a power of two before it is rounded.  The theory is one of rational numbers
  (`nearestWhole`, `nearestDouble`), and the last part of this module says that the two agree.  The
  exponent that the model finds by comparing lengths is the one that the logarithm gives
  (`exponentOf_eq`).

  Numbers that are too large or too small for the exponent of a double do not come up, and are left
  out.
-/

namespace TunnelBoard

/-! ## To whole numbers

A tie goes to the even number.  What is done with a quotient of whole numbers depends on their ratio
alone, so the order and the bounds are shown for ratios. -/

section

variable {a b c d m : Nat}

/-- Rounding moves a ratio by a half at the most. -/
theorem roundDiv_bounds (h : 0 < b) :
    2 * roundDiv a b * b ≤ 2 * a + b ∧ 2 * a ≤ 2 * roundDiv a b * b + b := by
  have hsplit := Nat.div_add_mod a b
  have hmod := Nat.mod_lt a h
  unfold roundDiv
  dsimp only
  generalize a / b = q at hsplit ⊢
  generalize a % b = r at hsplit hmod ⊢
  subst hsplit
  have hodd : q % 2 = 0 ∨ q % 2 = 1 := Nat.mod_two_eq_zero_or_one q
  -- down, up, or a tie
  split
  · constructor
    · nlinarith
    · nlinarith
  · split
    · constructor
      · nlinarith
      · nlinarith
    · rcases hodd with hodd | hodd
      · rw [hodd]
        constructor
        · nlinarith
        · nlinarith
      · rw [hodd]
        constructor
        · nlinarith
        · nlinarith

/-- A ratio that is a whole number is rounded to it. -/
theorem roundDiv_mul (h : 0 < b) (m : Nat) : roundDiv (m * b) b = m := by
  unfold roundDiv
  dsimp only
  rw [Nat.mul_mod_left, Nat.mul_div_cancel _ h, if_pos h]

/-- Rounding gives the whole part or one more. -/
theorem div_le_roundDiv (a b : Nat) : a / b ≤ roundDiv a b ∧ roundDiv a b ≤ a / b + 1 := by
  have hodd := Nat.mod_lt (a / b) Nat.two_pos
  unfold roundDiv
  dsimp only
  split
  · omega
  · split
    · omega
    · omega

/-- A larger ratio is rounded to no smaller number. -/
theorem roundDiv_le_roundDiv (hb : 0 < b) (hd : 0 < d) (h : a * d ≤ c * b) :
    roundDiv a b ≤ roundDiv c d := by
  have ha := Nat.div_add_mod a b
  have hc := Nat.div_add_mod c d
  have hfloor : a / b ≤ c / d := by
    rw [Nat.le_div_iff_mul_le hd]
    refine Nat.le_of_mul_le_mul_right ?_ hb
    calc a / b * d * b = b * (a / b) * d := by ring
      _ ≤ a * d := Nat.mul_le_mul_right d (Nat.mul_div_le a b)
      _ ≤ c * b := h
  rcases Nat.lt_or_eq_of_le hfloor with hlt | hsame
  · exact Nat.le_trans (div_le_roundDiv a b).2 (Nat.le_trans hlt (div_le_roundDiv c d).1)
  · -- the whole parts are the same, so it is a matter of what is left
    have hrest : a % b * d ≤ c % d * b := by
      rw [← ha, ← hc, Nat.add_mul, Nat.add_mul, hsame] at h
      have hwhole : b * (c / d) * d = d * (c / d) * b := by ring
      omega
    have hfraction : b ≤ 2 * (a % b) → d ≤ 2 * (c % d) := fun hle =>
      Nat.le_of_mul_le_mul_right (by nlinarith : d * b ≤ 2 * (c % d) * b) hb
    have hover : b < 2 * (a % b) → d < 2 * (c % d) := fun hlt =>
      Nat.lt_of_mul_lt_mul_right (a := b) (by nlinarith)
    unfold roundDiv
    dsimp only
    rw [hsame]
    split_ifs <;> omega

end

/-- The whole number nearest to a ratio; of two that are as near, the even one. -/
def nearestWhole (q : ℚ) : Nat := roundDiv q.num.toNat q.den

section

variable {p q : ℚ} {m : Nat}

/-- A ratio that is not negative is the ratio of its parts. -/
theorem toNat_num_div_den (h : 0 ≤ q) : (q.num.toNat : ℚ) / q.den = q := by
  have hnum : (q.num.toNat : ℚ) = q.num := by
    exact_mod_cast Int.toNat_of_nonneg (Rat.num_nonneg.2 h)
  rw [hnum, Rat.num_div_den]

/-- A larger number is rounded to no smaller one. -/
theorem nearestWhole_mono (hp : 0 ≤ p) (h : p ≤ q) : nearestWhole p ≤ nearestWhole q := by
  refine roundDiv_le_roundDiv p.den_pos q.den_pos ?_
  have hpden : (0 : ℚ) < p.den := Nat.cast_pos.2 p.den_pos
  have hqden : (0 : ℚ) < q.den := Nat.cast_pos.2 q.den_pos
  have hratio : (p.num.toNat : ℚ) / p.den ≤ q.num.toNat / q.den := by
    rw [toNat_num_div_den hp, toNat_num_div_den (hp.trans h)]
    exact h
  rw [div_le_div_iff₀ hpden hqden] at hratio
  exact_mod_cast hratio

/-- How a quotient is rounded is a matter of the ratio alone. -/
theorem roundDiv_eq_nearestWhole (a : Nat) {b : Nat} (hb : 0 < b) :
    roundDiv a b = nearestWhole ((a : ℚ) / b) := by
  have hratio := toNat_num_div_den (q := (a : ℚ) / b) (by positivity)
  have hbpos : (0 : ℚ) < b := Nat.cast_pos.2 hb
  have hden : (0 : ℚ) < ((a : ℚ) / b).den := Nat.cast_pos.2 (Rat.den_pos _)
  rw [div_eq_div_iff hden.ne' hbpos.ne'] at hratio
  have hcross : ((a : ℚ) / b).num.toNat * b = a * ((a : ℚ) / b).den := by exact_mod_cast hratio
  exact Nat.le_antisymm
    (roundDiv_le_roundDiv hb (Rat.den_pos _) (Nat.le_of_eq hcross.symm))
    (roundDiv_le_roundDiv (Rat.den_pos _) hb (Nat.le_of_eq hcross))

/-- A whole number is rounded to itself. -/
theorem nearestWhole_natCast (m : Nat) : nearestWhole (m : ℚ) = m := by
  have hone := roundDiv_eq_nearestWhole m Nat.one_pos
  rw [Nat.cast_one, div_one] at hone
  rw [← hone, ← Nat.mul_one m, roundDiv_mul Nat.one_pos, Nat.mul_one]

/-- Rounding moves a number by a half at the most. -/
theorem nearestWhole_bounds (h : 0 ≤ q) :
    (nearestWhole q : ℚ) ≤ q + 1 / 2 ∧ q ≤ nearestWhole q + 1 / 2 := by
  have hden : (0 : ℚ) < q.den := Nat.cast_pos.2 q.den_pos
  obtain ⟨hle, hge⟩ := roundDiv_bounds (a := q.num.toNat) q.den_pos
  have hle' : (2 * nearestWhole q * q.den : ℚ) ≤ 2 * q.num.toNat + q.den := by exact_mod_cast hle
  have hge' : (2 * q.num.toNat : ℚ) ≤ 2 * nearestWhole q * q.den + q.den := by exact_mod_cast hge
  have hnum : (q.num.toNat : ℚ) = q * q.den := by
    rw [← div_eq_iff hden.ne', toNat_num_div_den h]
  rw [hnum] at hle' hge'
  constructor
  · nlinarith
  · nlinarith

/-- An even number is reached from a half below on, since a tie goes to it. -/
theorem le_nearestWhole_iff (h : 0 ≤ q) (hm : Even m) :
    m ≤ nearestWhole q ↔ (m : ℚ) - 1 / 2 ≤ q := by
  constructor
  · intro hle
    have hle' : (m : ℚ) ≤ nearestWhole q := Nat.cast_le.2 hle
    have hbound := (nearestWhole_bounds h).1
    linarith
  · intro hge
    rcases Nat.eq_zero_or_pos m with rfl | hpos
    · exact Nat.zero_le _
    · obtain ⟨k, hk⟩ := hm
      -- exactly a half below, it is a tie
      have htie : nearestWhole ((m : ℚ) - 1 / 2) = m := by
        have hratio : (m : ℚ) - 1 / 2 = ((2 * m - 1 : Nat) : ℚ) / (2 : Nat) := by
          rw [Nat.cast_sub (by omega)]
          push_cast
          ring
        rw [hratio, ← roundDiv_eq_nearestWhole _ Nat.two_pos]
        unfold roundDiv
        dsimp only
        split_ifs <;> omega
      have hone : (1 : ℚ) ≤ m := by exact_mod_cast hpos
      rw [← htie]
      exact nearestWhole_mono (by linarith) hge

end

/-! ## To doubles

A double has 53 significant bits, so rounding to the nearest one is rounding to whole units, whose
size depends on that of the number. -/

/-- What the last of 53 significant bits of a number stands for. -/
def unitOf (q : ℚ) : ℚ := 2 ^ (Int.log 2 q - 52)

/-- The double nearest to a number; of two that are as near, the even one. -/
def nearestDouble (q : ℚ) : ℚ := nearestWhole (q / unitOf q) * unitOf q

section

variable {p q : ℚ} {m n d : Nat}

/-- Every number has a unit. -/
theorem unitOf_pos (q : ℚ) : 0 < unitOf q := zpow_pos (by norm_num) _

/-- A positive number is between 2^52 and 2^53 of its units. -/
theorem unitOf_bounds (h : 0 < q) : 2 ^ 52 * unitOf q ≤ q ∧ q < 2 ^ 53 * unitOf q := by
  have htwo : (2 : ℚ) ≠ 0 := by norm_num
  have hlow : (2 : ℚ) ^ 52 * unitOf q = 2 ^ Int.log 2 q := by
    rw [unitOf, ← zpow_natCast, ← zpow_add₀ htwo]
    congr 1
    push_cast
    ring
  have hhigh : (2 : ℚ) ^ 53 * unitOf q = 2 ^ (Int.log 2 q + 1) := by
    rw [unitOf, ← zpow_natCast, ← zpow_add₀ htwo]
    congr 1
    push_cast
    ring
  rw [hlow, hhigh]
  exact ⟨Int.zpow_log_le_self (by norm_num) h, Int.lt_zpow_succ_log_self (by norm_num) q⟩

/-- Larger numbers have larger units, or the same. -/
theorem unitOf_mono (hp : 0 < p) (h : p ≤ q) : unitOf p ≤ unitOf q := by
  unfold unitOf
  have hlog := Int.log_mono_right (b := 2) hp h
  exact zpow_le_zpow_right₀ (by norm_num) (by omega)

/-- Zero is a double. -/
theorem nearestDouble_zero : nearestDouble 0 = 0 := by
  have hzero : nearestWhole 0 = 0 := nearestWhole_natCast 0
  rw [nearestDouble, zero_div, hzero, Nat.cast_zero, zero_mul]

/-- Only numbers that are not negative are rounded to. -/
theorem nearestDouble_nonneg (q : ℚ) : 0 ≤ nearestDouble q :=
  mul_nonneg (Nat.cast_nonneg _) (unitOf_pos q).le

/-- The nearest double stays between the powers of two around a number. -/
theorem nearestDouble_bounds (h : 0 < q) :
    2 ^ 52 * unitOf q ≤ nearestDouble q ∧ nearestDouble q ≤ 2 ^ 53 * unitOf q := by
  obtain ⟨hlow, hhigh⟩ := unitOf_bounds h
  have hunit := unitOf_pos q
  -- both ends are whole numbers of units, so they are rounded to themselves
  have hcount : ∀ k : Nat, nearestWhole ((2 : ℚ) ^ k) = 2 ^ k := fun k => by
    rw [← Nat.cast_ofNat, ← Nat.cast_pow, nearestWhole_natCast]
  constructor
  · have hle := nearestWhole_mono (by positivity) ((le_div_iff₀ hunit).2 hlow)
    rw [hcount] at hle
    exact mul_le_mul_of_nonneg_right (by exact_mod_cast hle) hunit.le
  · have hle := nearestWhole_mono (div_nonneg h.le hunit.le) ((div_le_iff₀ hunit).2 hhigh.le)
    rw [hcount] at hle
    exact mul_le_mul_of_nonneg_right (by exact_mod_cast hle) hunit.le

/-- A smaller unit is at most half as large. -/
theorem two_mul_unitOf_le (h : unitOf p < unitOf q) : 2 * unitOf p ≤ unitOf q := by
  have hlog : Int.log 2 p - 52 < Int.log 2 q - 52 := (zpow_lt_zpow_iff_right₀ (by norm_num)).1 h
  calc 2 * unitOf p = 2 ^ (Int.log 2 p - 52 + 1) := by
        rw [unitOf, zpow_add_one₀ (by norm_num), mul_comm]
    _ ≤ unitOf q := zpow_le_zpow_right₀ (by norm_num) (by omega)

/-- A larger number is rounded to no smaller double. -/
theorem nearestDouble_mono (hp : 0 ≤ p) (h : p ≤ q) : nearestDouble p ≤ nearestDouble q := by
  rcases hp.eq_or_lt with rfl | hpos
  · rw [nearestDouble_zero]
    exact nearestDouble_nonneg q
  · rcases (unitOf_mono hpos h).lt_or_eq with hlt | hsame
    · -- there is a power of two between them
      calc nearestDouble p ≤ 2 ^ 53 * unitOf p := (nearestDouble_bounds hpos).2
        _ = 2 ^ 52 * (2 * unitOf p) := by ring
        _ ≤ 2 ^ 52 * unitOf q := mul_le_mul_of_nonneg_left (two_mul_unitOf_le hlt) (by norm_num)
        _ ≤ nearestDouble q := (nearestDouble_bounds (hpos.trans_le h)).1
    · have hunit := unitOf_pos q
      have hwhole : nearestWhole (p / unitOf q) ≤ nearestWhole (q / unitOf q) :=
        nearestWhole_mono (div_nonneg hp hunit.le) (div_le_div_of_nonneg_right h hunit.le)
      rw [nearestDouble, nearestDouble, hsame]
      exact mul_le_mul_of_nonneg_right (Nat.cast_le.2 hwhole) hunit.le

/-- Rounding makes a number larger by one part in 2^53 at the most. -/
theorem nearestDouble_le (h : 0 ≤ q) : nearestDouble q ≤ q * (1 + 1 / 2 ^ 53) := by
  rcases h.eq_or_lt with rfl | hpos
  · rw [nearestDouble_zero, zero_mul]
  · have hunit := unitOf_pos q
    have hwhole := (nearestWhole_bounds (div_nonneg h hunit.le)).1
    have hlow := (unitOf_bounds hpos).1
    calc nearestDouble q ≤ (q / unitOf q + 1 / 2) * unitOf q := mul_le_mul_of_nonneg_right hwhole hunit.le
      _ = q + unitOf q / 2 := by
        rw [add_mul, div_mul_cancel₀ _ hunit.ne']
        ring
      _ ≤ q * (1 + 1 / 2 ^ 53) := by linarith

/-- A number that 53 bits can hold is a double. -/
theorem nearestDouble_of_bits (hm : m ≤ 2 ^ 53) (k : ℤ) :
    nearestDouble (m * 2 ^ k) = m * 2 ^ k := by
  have htwo : (2 : ℚ) ≠ 0 := by norm_num
  rcases Nat.eq_zero_or_pos m with rfl | hpos
  · rw [Nat.cast_zero, zero_mul, nearestDouble_zero]
  · generalize hq : (m : ℚ) * 2 ^ k = q
    have hqpos : 0 < q := by
      rw [← hq]
      exact mul_pos (Nat.cast_pos.2 hpos) (zpow_pos (by norm_num) k)
    have hunit := unitOf_pos q
    have hcount : ∃ j : Nat, q = j * unitOf q := by
      rcases le_or_gt (Int.log 2 q - 52) k with hle | hlt
      · -- its unit is no larger than the last of its bits
        refine ⟨m * 2 ^ (k - (Int.log 2 q - 52)).toNat, ?_⟩
        have hexponent : k = ((k - (Int.log 2 q - 52)).toNat : ℤ) + (Int.log 2 q - 52) := by omega
        rw [unitOf, Nat.cast_mul, Nat.cast_pow, Nat.cast_ofNat, mul_assoc, ← zpow_natCast,
          ← zpow_add₀ htwo, ← hexponent, hq]
      · -- so it is the power of two that has one bit more
        have hmost : q ≤ 2 ^ 53 * 2 ^ k := by
          rw [← hq]
          exact mul_le_mul_of_nonneg_right (by exact_mod_cast hm) (zpow_pos (by norm_num) k).le
        have hnext : 2 * 2 ^ k ≤ unitOf q := by
          calc (2 : ℚ) * 2 ^ k = 2 ^ (k + 1) := by rw [zpow_add_one₀ htwo, mul_comm]
            _ ≤ unitOf q := zpow_le_zpow_right₀ (by norm_num) (by omega)
        have hleast := (unitOf_bounds hqpos).1
        refine ⟨2 ^ 52, ?_⟩
        rw [Nat.cast_pow, Nat.cast_ofNat]
        linarith
    obtain ⟨j, hj⟩ := hcount
    have hwhole : q / unitOf q = j := by
      rw [div_eq_iff hunit.ne']
      exact hj
    rw [nearestDouble, hwhole, nearestWhole_natCast]
    exact hj.symm

end

/-! ## The numbers of the model

The operations of the model compute with whole numbers.  Here they are shown to be the exact ones,
rounded once to the nearest double. -/

namespace Double

variable {x : Double} {n d : Nat}

/-- The number that a double is. -/
def value (x : Double) : ℚ := x.mantissa * 2 ^ x.exponent

/-- The denominator of a double is positive. -/
theorem den_pos (x : Double) : 0 < x.den := Nat.pow_pos Nat.two_pos

/-- A power of two is a ratio of whole ones. -/
theorem cast_pow_toNat (e : ℤ) :
    ((Nat.pow 2 e.toNat : Nat) : ℚ) = 2 ^ e * (Nat.pow 2 (-e).toNat : Nat) := by
  have hcast : ∀ k : Nat, ((Nat.pow 2 k : Nat) : ℚ) = 2 ^ (k : ℤ) := fun k => by
    rw [zpow_natCast]
    exact Nat.cast_pow 2 k
  rw [hcast, hcast, ← zpow_add₀ (by norm_num)]
  congr 1
  omega

/-- A double is the ratio of its two whole numbers. -/
theorem num_div_den (x : Double) : (x.num : ℚ) / x.den = x.value := by
  have hden : (0 : ℚ) < (Nat.pow 2 (-x.exponent).toNat : Nat) := Nat.cast_pos.2 x.den_pos
  rw [num, den, Nat.cast_mul, cast_pow_toNat, value, div_eq_iff hden.ne']
  ring

/-- Powers of two are positive. -/
theorem cast_pow_pos (k : Nat) : (0 : ℚ) < (Nat.pow 2 k : Nat) := Nat.cast_pos.2 (Nat.pow_pos Nat.two_pos)

/-- A ratio lies between powers of two that the lengths of its parts tell. -/
theorem ratio_bounds (hn : 0 < n) (hd : 0 < d) :
    (2 : ℚ) ^ ((n.log2 : ℤ) - d.log2 - 1) ≤ (n : ℚ) / d ∧
      (n : ℚ) / d < 2 ^ ((n.log2 : ℤ) - d.log2 + 1) := by
  have htwo : (2 : ℚ) ≠ 0 := by norm_num
  have hdpos : (0 : ℚ) < d := Nat.cast_pos.2 hd
  -- each part lies between the power of two of its length and the next one
  have hbounds : ∀ {k : Nat}, 0 < k → (2 : ℚ) ^ (k.log2 : ℤ) ≤ k ∧ (k : ℚ) < 2 ^ ((k.log2 : ℤ) + 1) := by
    intro k hk
    rw [← Nat.cast_succ, zpow_natCast, zpow_natCast]
    exact ⟨by exact_mod_cast Nat.log2_self_le hk.ne', by exact_mod_cast Nat.lt_log2_self⟩
  obtain ⟨hnlow, hnhigh⟩ := hbounds hn
  obtain ⟨hdlow, hdhigh⟩ := hbounds hd
  rw [le_div_iff₀ hdpos, div_lt_iff₀ hdpos]
  constructor
  · calc (2 : ℚ) ^ ((n.log2 : ℤ) - d.log2 - 1) * d
        ≤ 2 ^ ((n.log2 : ℤ) - d.log2 - 1) * 2 ^ ((d.log2 : ℤ) + 1) :=
          mul_le_mul_of_nonneg_left hdhigh.le (zpow_pos (by norm_num) _).le
      _ = 2 ^ (n.log2 : ℤ) := by
        rw [← zpow_add₀ htwo]
        congr 1
        omega
      _ ≤ n := hnlow
  · calc (n : ℚ) < 2 ^ ((n.log2 : ℤ) + 1) := hnhigh
      _ = 2 ^ ((n.log2 : ℤ) - d.log2 + 1) * 2 ^ (d.log2 : ℤ) := by
        rw [← zpow_add₀ htwo]
        congr 1
        omega
      _ ≤ 2 ^ ((n.log2 : ℤ) - d.log2 + 1) * d :=
        mul_le_mul_of_nonneg_left hdlow (zpow_pos (by norm_num) _).le

/-- The exponent of a ratio is that of its unit. -/
theorem exponentOf_eq (hn : 0 < n) (hd : 0 < d) :
    exponentOf n d = Int.log 2 ((n : ℚ) / d) - 52 := by
  have hdpos : (0 : ℚ) < d := Nat.cast_pos.2 hd
  have hratio : (0 : ℚ) < (n : ℚ) / d := div_pos (Nat.cast_pos.2 hn) hdpos
  obtain ⟨hlow, hhigh⟩ := ratio_bounds hn hd
  unfold exponentOf
  dsimp only
  generalize (n.log2 : ℤ) - d.log2 = e at hlow hhigh ⊢
  have hleast := (Int.zpow_le_iff_le_log one_lt_two hratio).1 hlow
  have hmost := (Int.lt_zpow_iff_log_lt one_lt_two hratio).1 hhigh
  -- which of the two exponents it is, a comparison of whole numbers tells
  have hcompare : n * Nat.pow 2 (-e).toNat < d * Nat.pow 2 e.toNat ↔ Int.log 2 ((n : ℚ) / d) < e := by
    have hpow := cast_pow_pos (-e).toNat
    have hcross : (d * Nat.pow 2 e.toNat : Nat) = ((2 : Nat) : ℚ) ^ e * d * (Nat.pow 2 (-e).toNat : Nat) := by
      rw [Nat.cast_mul, cast_pow_toNat e, Nat.cast_ofNat]
      ring
    rw [← Int.lt_zpow_iff_log_lt one_lt_two hratio, div_lt_iff₀ hdpos, ← mul_lt_mul_iff_left₀ hpow,
      ← hcross, ← Nat.cast_mul, Nat.cast_lt]
  split
  · rename_i hlt
    have hlog := hcompare.1 hlt
    omega
  · rename_i hge
    have hlog : ¬ Int.log 2 ((n : ℚ) / d) < e := fun h => hge (hcompare.2 h)
    omega

/-- **Every operation rounds once**: the double of a ratio is the double nearest to it. -/
theorem value_ofQuotient (n : Nat) (hd : 0 < d) :
    (ofQuotient n d).value = nearestDouble ((n : ℚ) / d) := by
  rcases Nat.eq_zero_or_pos n with rfl | hn
  · rw [Nat.cast_zero, zero_div, nearestDouble_zero]
    exact zero_mul _
  · have hdpos : (0 : ℚ) < d := Nat.cast_pos.2 hd
    -- scaled, the ratio is one of units
    have hscaled : ((n * Nat.pow 2 (-exponentOf n d).toNat : Nat) : ℚ) /
        (d * Nat.pow 2 (exponentOf n d).toNat : Nat) = (n : ℚ) / d / 2 ^ exponentOf n d := by
      have hpow := cast_pow_pos (-exponentOf n d).toNat
      have hunit : (0 : ℚ) < 2 ^ exponentOf n d := zpow_pos (by norm_num) _
      rw [Nat.cast_mul, Nat.cast_mul, cast_pow_toNat (exponentOf n d)]
      field_simp
    have hden : 0 < d * Nat.pow 2 (exponentOf n d).toNat := Nat.mul_pos hd (Nat.pow_pos Nat.two_pos)
    unfold ofQuotient
    rw [if_neg hn.ne']
    show (roundDiv _ _ : ℚ) * 2 ^ exponentOf n d = _
    rw [roundDiv_eq_nearestWhole _ hden, hscaled, exponentOf_eq hn hd]
    rfl

/-- A whole number becomes the nearest double. -/
theorem value_ofNat (n : Nat) : (ofNat n).value = nearestDouble n := by
  rw [ofNat, value_ofQuotient n Nat.one_pos, Nat.cast_one, div_one]

/-- A quotient is rounded once. -/
theorem value_divNat (x : Double) (hn : 0 < n) : (x.divNat n).value = nearestDouble (x.value / n) := by
  rw [divNat, value_ofQuotient x.num (Nat.mul_pos x.den_pos hn), Nat.cast_mul, ← div_div, num_div_den]

/-- A product is, too. -/
theorem value_mulNat (x : Double) (n : Nat) : (x.mulNat n).value = nearestDouble (x.value * n) := by
  rw [mulNat, value_ofQuotient _ x.den_pos, Nat.cast_mul, mul_div_right_comm, num_div_den]

/-- Comparing does not round. -/
theorem ltNat_iff (x : Double) (n : Nat) : x.ltNat n = true ↔ x.value < n := by
  have hden : (0 : ℚ) < x.den := Nat.cast_pos.2 x.den_pos
  rw [ltNat, decide_eq_true_iff, ← num_div_den, div_lt_iff₀ hden]
  exact_mod_cast Iff.rfl

/-- To print with some places is to round to whole numbers of the last one. -/
theorem scaled_eq (x : Double) (places : Nat) :
    x.scaled places = nearestWhole (x.value * 10 ^ places) := by
  have hpow : ((Nat.pow 10 places : Nat) : ℚ) = 10 ^ places := Nat.cast_pow 10 places
  rw [scaled, roundDiv_eq_nearestWhole _ x.den_pos, Nat.cast_mul, hpow, mul_div_right_comm, num_div_den]

end Double

end TunnelBoard
