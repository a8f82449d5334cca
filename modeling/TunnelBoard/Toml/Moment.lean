import TunnelBoard.Text.Basic
/-
  Dates and times of day, as TOML writes them.

  A date is `1979-05-27` and has to exist in the calendar.  A time is `07:32:00`, possibly with a
  fraction of a second.  A date may be followed by a time, and that by an offset from universal time.
-/

namespace TunnelBoard
namespace Toml

/-- A number in two digits. -/
def twoDigits? (a b : Char) : Option Nat :=
  if a.isDigit && b.isDigit then some ((a.toNat - 48) * 10 + (b.toNat - 48)) else none

/-- Whether two characters are a number in two digits from `low` to `high`. -/
def isBetween (low high : Nat) (a b : Char) : Bool :=
  match twoDigits? a b with
  | some n => low ≤ n && n ≤ high
  | none => false

def isLeapYear (y : Nat) : Bool := y % 4 = 0 && (y % 100 ≠ 0 || y % 400 = 0)

def daysOfMonth (y m : Nat) : Nat :=
  if m = 2 then if isLeapYear y then 29 else 28
  else if m = 4 || m = 6 || m = 9 || m = 11 then 30
  else 31

/-- Drop a date. -/
def dropDate? : Text → Option Text
  | y₁ :: y₂ :: y₃ :: y₄ :: '-' :: m₁ :: m₂ :: '-' :: d₁ :: d₂ :: t =>
    match twoDigits? y₁ y₂, twoDigits? y₃ y₄, twoDigits? m₁ m₂, twoDigits? d₁ d₂ with
    | some c, some y, some m, some d =>
      if 1 ≤ m && m ≤ 12 && 1 ≤ d && d ≤ daysOfMonth (c * 100 + y) m then some t else none
    | _, _, _, _ => none
  | _ => none

/-- Drop the fraction of a second, if there is one. -/
def dropFraction? : Text → Option Text
  | '.' :: t => if (t.takeWhile Char.isDigit).isEmpty then none else some (t.dropWhile Char.isDigit)
  | t => some t

/-- Drop a time of day. -/
def dropTime? : Text → Option Text
  | h₁ :: h₂ :: ':' :: m₁ :: m₂ :: ':' :: s₁ :: s₂ :: t =>
    if isBetween 0 23 h₁ h₂ && isBetween 0 59 m₁ m₂ && isBetween 0 60 s₁ s₂ then dropFraction? t
    else none
  | _ => none

/-- Whether this is an offset from universal time. -/
def isOffset : Text → Bool
  | ['Z'] => true
  | ['z'] => true
  | [sign, h₁, h₂, ':', m₁, m₂] =>
    (sign = '+' || sign = '-') && isBetween 0 23 h₁ h₂ && isBetween 0 59 m₁ m₂
  | _ => false

/-- Whether this is a date and nothing else. -/
def isDate (t : Text) : Bool := dropDate? t = some []

/-- Whether this is a time and nothing else. -/
def isTime (t : Text) : Bool := dropTime? t = some []

/-- Whether this can follow a date: a time, with or without an offset. -/
def isTimeWithOffset (t : Text) : Bool :=
  match dropTime? t with
  | some rest => rest.isEmpty || isOffset rest
  | none => false

/-- Whether this is a date, a time, or a date and a time with the letter between them. -/
def isMoment (t : Text) : Bool :=
  isTime t ||
  match dropDate? t with
  | some [] => true
  | some (c :: rest) => (c = 'T' || c = 't') && isTimeWithOffset rest
  | none => false

end Toml
end TunnelBoard
