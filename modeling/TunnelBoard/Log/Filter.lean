import TunnelBoard.Failure
import TunnelBoard.Log.Record
/-
  Which records are let through to the log.

  A filter is named by the least grave level it lets through, or `off`.  Two variables of the
  environment may name one, and the first that names one is followed; otherwise the configured name
  is, and a name that is none lets through errors only.
-/

namespace TunnelBoard

/-- Records of this level and of graver ones pass; none do if there is no level. -/
structure LogFilter where
  least : Option Level
  deriving DecidableEq, Repr

namespace LogFilter

/-- The filter that is followed when nothing is said. -/
def errors : LogFilter := ⟨some .error⟩

/-- The names of filters. -/
def named : List (Text × LogFilter) :=
  [([], errors), ("off".toList, ⟨none⟩), ("error".toList, errors), ("warn".toList, ⟨some .warn⟩),
    ("info".toList, ⟨some .info⟩), ("debug".toList, ⟨some .debug⟩),
    ("trace".toList, ⟨some .trace⟩)]

/-- The filter with a name, in letters of any case. -/
def ofName? (name : Text) : Option LogFilter := named.lookup (lowerAscii name)

/-- The filter to follow, given how variables are looked up and the configured name. -/
def choose (lookup : String → Option Text) (configured : Text) : LogFilter :=
  let ofVariable (name : String) : Option LogFilter := (lookup name).bind ofName?
  ((ofVariable "TUNDASH_LOG" <|> ofVariable "RUST_LOG") <|> ofName? configured).getD errors

/-- Whether a record passes. -/
def passes (f : LogFilter) (r : LogRecord) : Bool :=
  match f.least with
  | some level => level.rank ≤ r.level.rank
  | none => false

/-- The lines of the records that pass. -/
def lines (f : LogFilter) (records : List LogRecord) : List Text :=
  (records.filter f.passes).map LogRecord.line

/-- Put a filter in force, which can be done once. -/
def install (inForce : Option LogFilter) (f : LogFilter) : Except Failure LogFilter :=
  match inForce with
  | none => .ok f
  | some _ =>
    .error (.runtime ("tracing subscriber already installed: "
      ++ "a global default trace dispatcher has already been set").toList)

end LogFilter
end TunnelBoard
