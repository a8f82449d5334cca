import TunnelBoard.Config.Basic
/-
  Environment variables that override the configuration.

  The variables are looked at in a fixed order.  The first one that cannot be understood ends it:
  those before it stay in force, those after it do not count.
-/

namespace TunnelBoard

/-- The variables of the environment. -/
abbrev Environment := List (Text × Text)

/-- The value of a variable. -/
def Environment.get? (env : Environment) (name : String) : Option Text := env.lookup name.toList

/-! ## Numbers -/

/-- Why a text is no number. -/
inductive NumberError where
  | empty
  | invalidDigit
  | tooLarge
  deriving DecidableEq, Repr

def NumberError.message : NumberError → Text
  | empty => "cannot parse integer from empty string".toList
  | invalidDigit => "invalid digit found in string".toList
  | tooLarge => "number too large to fit in target type".toList

/-- Go on reading digits after a number.  The first character that spoils the number is told. -/
def readDigits : Nat → Text → Except NumberError Nat
  | n, [] => .ok n
  | n, c :: s =>
    if !c.isDigit then .error .invalidDigit
    else
      let m := n * 10 + (c.toNat - '0'.toNat)
      if m < Nat.pow 2 64 then readDigits m s else .error .tooLarge

/-- A number of 64 bits, with or without a plus sign. -/
def parseNumber : Text → Except NumberError Nat
  | [] => .error .empty
  | ['+'] => .error .invalidDigit
  | '+' :: s => readDigits 0 s
  | s => readDigits 0 s

/-! ## Overrides -/

/-- One variable, and what its value does to the configuration. -/
structure Override where
  name : String
  apply : Config → Text → Except Text Config

namespace Override

/-- An override that sets a number. -/
def number (name : String) (set : Config → Nat → Config) : Override where
  name
  apply c raw :=
    match parseNumber (trim raw) with
    | .ok n => .ok (set c n)
    | .error e => .error e.message

/-- An override that sets a text. -/
def text (name : String) (set : Config → Text → Config) : Override where
  name
  apply c raw := .ok (set c raw)

/-- The modes in a list with commas, blank parts aside, or the first part that is no mode. -/
def modesIn (raw : Text) : Except Text (List Mode) :=
  ((cutAt ',' raw).filter (!allBlank ·)).mapM Mode.parse

/-- An override that sets the modes. -/
def modes (name : String) : Override where
  name
  apply c raw :=
    match modesIn raw with
    | .ok modes => .ok { c with modes }
    | .error key => .error (Mode.unknownMessage key)

/-- All overrides, in the order they count. -/
def all : List Override :=
  [number "TUNDASH_TICK_INTERVAL_MS" fun c n =>
      { c with dashboard := { c.dashboard with tickInterval := n } },
    number "TUNDASH_LOG_POLL_INTERVAL_MS" fun c n =>
      { c with dashboard := { c.dashboard with logPollInterval := n } },
    number "TUNDASH_LOG_TAIL_LINES" fun c n =>
      { c with dashboard := { c.dashboard with logTailLines := n } },
    number "TUNDASH_LOG_CAPACITY" fun c n => { c with logging := { c.logging with capacity := n } },
    text "TUNDASH_LOG_LEVEL" fun c t => { c with logging := { c.logging with level := t } },
    text "TUNDASH_PREFERENCES_FILE" fun c t =>
      { c with paths := { c.paths with preferencesFile := t } },
    modes "TUNDASH_MODES"]

/-- The failure that a variable's value causes. -/
def failure (name : String) (raw details : Text) : Failure :=
  .configParse "env".toList
    (name.toList ++ '=' :: quoted raw ++ ": ".toList ++ details)

/-- Apply overrides one after another: the configuration as far as it got, and what stopped it. -/
def applyAll (lookup : String → Option Text) : List Override → Config → Config × Option Failure
  | [], c => (c, none)
  | o :: rest, c =>
    match lookup o.name with
    | none => applyAll lookup rest c
    | some raw =>
      match o.apply c raw with
      | .ok c => applyAll lookup rest c
      | .error details => (c, some (failure o.name raw details))

end Override

/-- The configuration with the overrides that `lookup` finds. -/
def Config.override (lookup : String → Option Text) (c : Config) : Config × Option Failure :=
  Override.applyAll lookup Override.all c

end TunnelBoard
