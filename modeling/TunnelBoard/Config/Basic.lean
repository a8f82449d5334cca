import TunnelBoard.Disk.Basic
import TunnelBoard.Failure
import TunnelBoard.Mode
import TunnelBoard.Toml.Printer
import TunnelBoard.Toml.Table
/-
  The configuration, its form in a file, and what it has to satisfy.

  Intervals are in milliseconds.  What a file does not say has a standard value; the standard paths
  lie in a folder of the operator's home, if there is one.
-/

namespace TunnelBoard

/-- How often the dashboard looks around, and how much it shows. -/
structure DashboardConfig where
  tickInterval : Nat
  /-- How often a log that cannot tell of new lines is read again. -/
  logPollInterval : Nat
  /-- How many of the newest log lines are at hand. -/
  logTailLines : Nat
  maxCardWidth : Nat
  deriving DecidableEq, Repr

structure LoggingConfig where
  /-- How many lines the log in memory keeps. -/
  capacity : Nat
  /-- What is logged if the environment does not say. -/
  level : Text
  deriving DecidableEq, Repr

structure PathsConfig where
  configFile : Text
  preferencesFile : Text
  deriving DecidableEq, Repr

structure Config where
  dashboard : DashboardConfig
  logging : LoggingConfig
  modes : List Mode
  paths : PathsConfig
  deriving DecidableEq, Repr

/-! ## Standard values -/

def DashboardConfig.standard : DashboardConfig := ⟨1000, 500, 200, 76⟩

def LoggingConfig.standard : LoggingConfig := ⟨1000, "info".toList⟩

/-- The standard paths, given the operator's home. -/
def PathsConfig.standard (home : Option Text) : PathsConfig :=
  let folder :=
    match home with
    | none => ".tundash".toList
    | some home => joinPath (joinPath home ".config".toList) "tundash".toList
  ⟨joinPath folder "config.toml".toList, joinPath folder "preferences.toml".toList⟩

def Config.standard (home : Option Text) : Config :=
  ⟨.standard, .standard, Mode.all, .standard home⟩

/-! ## Reading -/

/-- A number from a file. -/
def Toml.size? : Toml → Option Nat := Toml.nat? Toml.largest

/-- The modes by name. -/
def Mode.named : List (Text × Mode) := Mode.all.map fun m => (m.name, m)

def DashboardConfig.ofToml? (v : Toml) : Option DashboardConfig :=
  match v.parts? ["tick_interval_ms", "log_poll_interval_ms", "log_tail_lines",
      "max_card_width"] with
  | some [tick, poll, tail, width] => do
    let tickInterval ← Toml.partOr standard.tickInterval Toml.size? tick
    let logPollInterval ← Toml.partOr standard.logPollInterval Toml.size? poll
    let logTailLines ← Toml.partOr standard.logTailLines Toml.size? tail
    let maxCardWidth ← Toml.partOr standard.maxCardWidth Toml.size? width
    pure { tickInterval, logPollInterval, logTailLines, maxCardWidth }
  | _ => none

def LoggingConfig.ofToml? (v : Toml) : Option LoggingConfig :=
  match v.parts? ["capacity", "level"] with
  | some [capacity, level] => do
    let capacity ← Toml.partOr standard.capacity Toml.size? capacity
    let level ← Toml.partOr standard.level Toml.text? level
    pure { capacity, level }
  | _ => none

/-- The modes on offer, from their section of the file. -/
def Config.modesOfToml? (v : Toml) : Option (List Mode) :=
  match v.parts? ["available"] with
  | some [available] => Toml.partOr Mode.all (Toml.list? (Toml.oneOf? Mode.named)) available
  | _ => none

def PathsConfig.ofToml? (home : Option Text) (v : Toml) : Option PathsConfig :=
  match v.parts? ["config_file", "preferences_file"] with
  | some [config, preferences] => do
    let configFile ← Toml.partOr (standard home).configFile Toml.text? config
    let preferencesFile ← Toml.partOr (standard home).preferencesFile Toml.text? preferences
    pure { configFile, preferencesFile }
  | _ => none

namespace Config

def ofToml? (home : Option Text) (v : Toml) : Option Config :=
  match v.parts? ["dashboard", "logging", "modes", "paths"] with
  | some [dashboard, logging, modes, paths] => do
    let dashboard ← Toml.partOr .standard DashboardConfig.ofToml? dashboard
    let logging ← Toml.partOr .standard LoggingConfig.ofToml? logging
    let modes ← Toml.partOr Mode.all modesOfToml? modes
    let paths ← Toml.partOr (.standard home) (PathsConfig.ofToml? home) paths
    pure { dashboard, logging, modes, paths }
  | _ => none

/-- The configuration in a document. -/
def parse? (home : Option Text) (s : Text) : Option Config := (Toml.parse? s).bind (ofToml? home)

/-! ## Writing -/

/-- The numbers of a configuration, in the order they are written. -/
def sizes (c : Config) : List Nat :=
  [c.dashboard.tickInterval, c.dashboard.logPollInterval, c.dashboard.logTailLines,
    c.dashboard.maxCardWidth, c.logging.capacity]

/-- The sections of the file. -/
def document (c : Config) : Text :=
  Toml.writeHeader "dashboard"
    ++ Toml.writeEntry "tick_interval_ms" (natText c.dashboard.tickInterval)
    ++ Toml.writeEntry "log_poll_interval_ms" (natText c.dashboard.logPollInterval)
    ++ Toml.writeEntry "log_tail_lines" (natText c.dashboard.logTailLines)
    ++ Toml.writeEntry "max_card_width" (natText c.dashboard.maxCardWidth)
    ++ '\n' :: Toml.writeHeader "logging"
    ++ Toml.writeEntry "capacity" (natText c.logging.capacity)
    ++ Toml.writeEntry "level" (Toml.writeText c.logging.level)
    ++ '\n' :: Toml.writeHeader "modes"
    ++ Toml.writeEntry "available" (Toml.writeArray (c.modes.map fun m => Toml.writeText m.name))
    ++ '\n' :: Toml.writeHeader "paths"
    ++ Toml.writeEntry "config_file" (Toml.writeText c.paths.configFile)
    ++ Toml.writeEntry "preferences_file" (Toml.writeText c.paths.preferencesFile)

/-- The configuration as a document, if its numbers fit into one. -/
def write (c : Config) : Except Failure Text :=
  if c.sizes.all (· ≤ Toml.largest) then .ok c.document
  else .error (.serialization "toml".toList "out-of-range value for u64 type".toList)

/-! ## Acceptance -/

/-- The shortest interval that is accepted. -/
def minInterval : Nat := 50

/-- The first complaint about a configuration, if there is one. -/
def complaint? (c : Config) : Option Text :=
  let d := c.dashboard
  if d.tickInterval < minInterval then
    some (tooShort "dashboard.tick_interval_ms" d.tickInterval)
  else if d.logPollInterval < minInterval then
    some (tooShort "dashboard.log_poll_interval_ms" d.logPollInterval)
  else if c.logging.capacity = 0 then some "logging.capacity must be >= 1".toList
  else if d.logTailLines = 0 ∨ c.logging.capacity < d.logTailLines then
    some ("dashboard.log_tail_lines must be in [1, ".toList ++ natText c.logging.capacity
      ++ "], got ".toList ++ natText d.logTailLines)
  else if d.maxCardWidth < 20 then
    some ("dashboard.max_card_width must be >= 20, got ".toList ++ natText d.maxCardWidth)
  else if c.modes = [] then some "modes.available must list at least one mode".toList
  else none
where
  tooShort (name : String) (value : Nat) : Text :=
    name.toList ++ " must be >= ".toList ++ natText minInterval ++ ", got ".toList ++ natText value

/-- Accept a configuration or say what is wrong with it. -/
def validate (c : Config) : Except Failure Unit :=
  match c.complaint? with
  | none => .ok ()
  | some details => .error (.invalidConfig details)

end Config
end TunnelBoard
