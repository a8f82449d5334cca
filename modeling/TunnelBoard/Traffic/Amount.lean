import TunnelBoard.Number.Double
/-
  How amounts of data and time are written: `999 B`, `1.50 kB`, `12.0 MiB/s`, `3h 07m`.

  A byte count below the first multiple is written as it is.  Above it, it is divided by the base
  until it is less than one more multiple, and then written with as many places as make three
  digits.  A count too large for the last unit is written in that unit with one place.
-/

namespace TunnelBoard

/-- Unit system for amounts of data. -/
inductive StatsUnit where
  /-- Powers of 1000: kB, MB. -/
  | decimal
  /-- Powers of 1024: KiB, MiB. -/
  | binary
  deriving DecidableEq, Repr

namespace StatsUnit

def name : StatsUnit → Text
  | decimal => "decimal".toList
  | binary => "binary".toList

def toggled : StatsUnit → StatsUnit
  | decimal => binary
  | binary => decimal

/-- The ratio of one unit to the one before it. -/
def base : StatsUnit → Nat
  | decimal => 1000
  | binary => 1024

/-- The names of the units, smallest first. -/
def symbols : StatsUnit → List Text
  | decimal => ["B".toList, "kB".toList, "MB".toList, "GB".toList, "TB".toList, "PB".toList]
  | binary => ["B".toList, "KiB".toList, "MiB".toList, "GiB".toList, "TiB".toList, "PiB".toList]

end StatsUnit

/-- How many decimal places make three digits of a size. -/
def placesFor (size : Double) : Nat :=
  if !size.ltNat 100 then 0 else if !size.ltNat 10 then 1 else 2

/-- Walk up the units until the size is less than the base, dividing at each step.  `last` is the
    unit to fall back to. -/
def sizeText (base : Nat) (last : Text) : Double → List Text → Text
  | size, [] => (size.mulNat base).fixed 1 ++ ' ' :: last
  | size, symbol :: rest =>
    if size.ltNat base then size.fixed (placesFor size) ++ ' ' :: symbol
    else sizeText base last (size.divNat base) rest

/-- A byte count in the given unit system. -/
def bytesText (bytes : Nat) (unit : StatsUnit) : Text :=
  if (Double.ofNat bytes).ltNat unit.base then natText bytes ++ " B".toList
  else sizeText unit.base (unit.symbols.getLast?.getD []) (Double.ofNat bytes) unit.symbols

/-- A transfer rate, from a byte count per second. -/
def rateText (bytesPerSecond : Nat) (unit : StatsUnit) : Text :=
  bytesText bytesPerSecond unit ++ "/s".toList

/-- An elapsed time in its two largest units: `45s`, `12m 05s`, `3h 07m`, `2d 04h`. -/
def durationText (seconds : Nat) : Text :=
  if seconds < 60 then natText seconds ++ ['s']
  else if seconds < 3600 then
    natText (seconds / 60) ++ "m ".toList ++ natTextPadded 2 (seconds % 60) ++ ['s']
  else if seconds < 86400 then
    natText (seconds / 3600) ++ "h ".toList ++ natTextPadded 2 (seconds % 3600 / 60) ++ ['m']
  else
    natText (seconds / 86400) ++ "d ".toList ++ natTextPadded 2 (seconds % 86400 / 3600) ++ ['h']

end TunnelBoard
