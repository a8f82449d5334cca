import TunnelBoard.Text.Basic
/-
  Nonnegative double-precision numbers, as exact integers.

  A number is `mantissa * 2 ^ exponent`.  Every operation computes its exact quotient and rounds it
  once to 53 significant bits, a tie going to the even neighbour; `fixed` prints the exact value
  with a given number of places and the same rounding.  The amounts in this program stay far from
  the ends of the exponent range, so neither overflow nor subnormal numbers are needed.
-/

namespace TunnelBoard

/-- The integer nearest to `num / den`; a tie goes to the even one. -/
def roundDiv (num den : Nat) : Nat :=
  let q := num / den
  let r := num % den
  if 2 * r < den then q else if den < 2 * r then q + 1 else q + q % 2

/-- The number `mantissa * 2 ^ exponent`. -/
structure Double where
  mantissa : Nat
  exponent : Int
  deriving DecidableEq, Repr

namespace Double

/-- The value as a quotient of integers: the numerator. -/
def num (x : Double) : Nat := x.mantissa * Nat.pow 2 x.exponent.toNat

/-- The value as a quotient of integers: the denominator, a power of two. -/
def den (x : Double) : Nat := Nat.pow 2 (-x.exponent).toNat

/-- The exponent at which `n / d` has a mantissa of 53 bits. -/
def exponentOf (n d : Nat) : Int :=
  let e : Int := n.log2 - d.log2
  if n * Nat.pow 2 (-e).toNat < d * Nat.pow 2 e.toNat then e - 53 else e - 52

/-- The double nearest to `n / d`. -/
def ofQuotient (n d : Nat) : Double :=
  if n = 0 then ⟨0, 0⟩
  else
    let e := exponentOf n d
    ⟨roundDiv (n * Nat.pow 2 (-e).toNat) (d * Nat.pow 2 e.toNat), e⟩

/-- The double nearest to a whole number. -/
def ofNat (n : Nat) : Double := ofQuotient n 1

/-- The quotient by a whole number. -/
def divNat (x : Double) (n : Nat) : Double := ofQuotient x.num (x.den * n)

/-- The product with a whole number. -/
def mulNat (x : Double) (n : Nat) : Double := ofQuotient (x.num * n) x.den

/-- Whether the value is less than a whole number. -/
def ltNat (x : Double) (n : Nat) : Bool := x.num < n * x.den

/-- The value in units of the last of `places` decimal places, rounded. -/
def scaled (x : Double) (places : Nat) : Nat := roundDiv (x.num * Nat.pow 10 places) x.den

/-- The value with a fixed number of decimal places. -/
def fixed (x : Double) (places : Nat) : Text :=
  let n := x.scaled places
  if places = 0 then natText n
  else natText (n / Nat.pow 10 places) ++ '.' :: natTextPadded places (n % Nat.pow 10 places)

end Double
end TunnelBoard
