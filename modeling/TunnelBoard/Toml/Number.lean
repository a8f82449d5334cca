import TunnelBoard.Text.Basic
/-
  Numbers, as TOML writes them.

  A run of digits may be broken up by single underscores between digits.  A decimal integer has no
  needless zero in front.  A float is a decimal integer with a fraction, an exponent or both, or a
  name for infinity or no number; one that is too large for a double is refused.
-/

namespace TunnelBoard
namespace Toml

/-- The value of a digit, in any base up to sixteen. -/
def digitValue (c : Char) : Nat :=
  if '0' ≤ c ∧ c ≤ '9' then c.toNat - '0'.toNat
  else if 'a' ≤ c ∧ c ≤ 'f' then c.toNat - 'a'.toNat + 10
  else if 'A' ≤ c ∧ c ≤ 'F' then c.toNat - 'A'.toNat + 10
  else 16

/-- The digits of a run in some base. -/
def digits? (base : Nat) (t : Text) : Option (List Nat) :=
  if (cutAt '_' t).all fun piece => !piece.isEmpty && piece.all (digitValue · < base)
  then some ((cutAt '_' t).flatten.map digitValue)
  else none

/-- The number with these digits. -/
def ofDigits (base : Nat) (ds : List Nat) : Nat := ds.foldl (fun n d => n * base + d) 0

/-- The digits of a decimal integer without a sign. -/
def decimal? (t : Text) : Option (List Nat) :=
  (digits? 10 t).filter fun ds => !(ds.head? = some 0 && 1 < ds.length)

/-- A sign, if there is one, and the rest; `true` is minus. -/
def splitSign : Text → Bool × Text
  | '+' :: t => (false, t)
  | '-' :: t => (true, t)
  | t => (false, t)

/-- An integer of 64 bits. -/
def integer? : Text → Option Int
  | '0' :: 'x' :: t => unsigned 16 t
  | '0' :: 'o' :: t => unsigned 8 t
  | '0' :: 'b' :: t => unsigned 2 t
  | t =>
    let (minus, t) := splitSign t
    match (decimal? t).map (ofDigits 10) with
    | none => none
    | some n =>
      if minus then if n ≤ Nat.pow 2 63 then some (-(n : Int)) else none
      else if n < Nat.pow 2 63 then some (n : Int) else none
where
  unsigned (base : Nat) (t : Text) : Option Int :=
    match (digits? base t).map (ofDigits base) with
    | none => none
    | some n => if n < Nat.pow 2 63 then some (n : Int) else none

/-! ## Floats -/

/-- Digits times a power of ten, from where on doubles round to infinity. -/
def overflows (ds : List Nat) (exponent : Int) : Bool :=
  let ds := ds.dropWhile (· = 0)
  let size : Int := ds.length + exponent
  let bound := Nat.pow 2 1024 - Nat.pow 2 970
  if ds.isEmpty || size < 309 then false
  else if 309 < size then true
  else ofDigits 10 ds * Nat.pow 10 exponent.toNat ≥ bound * Nat.pow 10 (-exponent).toNat

/-- The fraction of a float, without its point. -/
def fraction? : Text → Option (List Nat)
  | [] => some []
  | '.' :: t => digits? 10 t
  | _ => none

/-- The exponent of a float, without its letter. -/
def exponent? : Text → Option Int
  | [] => some 0
  | _ :: t =>
    let (minus, t) := splitSign t
    (digits? 10 t).map fun ds => if minus then -(ofDigits 10 ds : Int) else ofDigits 10 ds

def isFloat (t : Text) : Bool :=
  let (minus, t) := splitSign t
  if t = "inf".toList || t = "nan".toList then true
  else
    let whole := t.takeWhile fun c => c ≠ '.' && c ≠ 'e' && c ≠ 'E'
    let t := t.drop whole.length
    let fraction := t.takeWhile fun c => c ≠ 'e' && c ≠ 'E'
    let exponent := t.drop fraction.length
    match decimal? whole, fraction? fraction, exponent? exponent with
    | some ds, some fs, some e =>
      !(fraction.isEmpty && exponent.isEmpty)
        && (minus || !overflows (ds ++ fs) (e - fs.length))
    | _, _, _ => false

end Toml
end TunnelBoard
