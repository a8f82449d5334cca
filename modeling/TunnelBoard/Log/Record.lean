import TunnelBoard.Text.Quoted
/-
  Records of the program's own log, and how each is written on one line.

  A line starts with the level, right-aligned in five columns, then the message, then every field
  as `name=value`.
-/

namespace TunnelBoard

inductive Level where
  | trace | debug | info | warn | error
  deriving DecidableEq, Repr

namespace Level

/-- How grave the level is; a filter lets through what is grave enough. -/
def rank : Level → Nat
  | trace => 0
  | debug => 1
  | info => 2
  | warn => 3
  | error => 4

def label : Level → Text
  | trace => "TRACE".toList
  | debug => "DEBUG".toList
  | info => " INFO".toList
  | warn => " WARN".toList
  | error => "ERROR".toList

end Level

/-- One entry of the log.  Values of fields are kept as they are written. -/
structure LogRecord where
  level : Level
  message : Text
  fields : List (Text × Text)
  deriving DecidableEq, Repr

/-- A field that is written as it is. -/
def shownField (name : String) (value : Text) : Text × Text := (name.toList, value)

/-- A field that is written in quotes. -/
def quotedField (name : String) (value : Text) : Text × Text := (name.toList, quoted value)

namespace LogRecord

/-- The line of the record, without the time in front. -/
def line (r : LogRecord) : Text :=
  r.level.label ++ ' ' :: r.message ++ r.fields.flatMap fun f => ' ' :: f.1 ++ '=' :: f.2

end LogRecord

/-- A record with a fixed message. -/
def logRecord (level : Level) (message : String) (fields : List (Text × Text)) : LogRecord :=
  ⟨level, message.toList, fields⟩

end TunnelBoard
