import TunnelBoard.CommandLine.Arguments
import TunnelBoard.Config.Load
import TunnelBoard.Log.Filter
import TunnelBoard.Preferences.Store
/-
  The program as it is called from a command line.

  `config` prints the configuration in force.  `run` keeps the theme that was asked for, and then
  opens the dashboard on the terminal; where there is none, that is how it ends.  Every kind of
  failure has an exit code of its own.
-/

namespace TunnelBoard

/-- Why a command fails. -/
inductive CommandError where
  /-- The fault lies with the operator's configuration. -/
  | operator (message : Text)
  | session (error : SessionError)
  | failure (failure : Failure)
  deriving DecidableEq, Repr

namespace CommandError

def exitCode : CommandError → Nat
  | operator _ => 1
  | failure _ => 2
  | session _ => 3

def message : CommandError → Text
  | operator m => m
  | session e => e.message
  | failure f => f.message

end CommandError

/-- What a call of the program leaves behind. -/
structure CommandOutcome where
  exitCode : Nat
  output : Text
  /-- What was said beside the output, line by line. -/
  remarks : List Text
  disk : Disk

namespace CommandLine

def version : Text := "tundash 0.3.1\n".toList

/-- What is said to an operator whose words make no sense. -/
def usage : List Text :=
  ["usage: tundash [--config PATH] [--no-color] config".toList,
    ("       tundash [--config PATH] [--no-color] run [--theme NAME] [--fail-after SECS] "
      ++ "[--drop-every SECS]").toList]

/-- The exit code of a call whose words make no sense. -/
def refusedCode : Nat := 2

/-- Whether remarks are coloured.  They do not go to a terminal, so that it takes a variable to force
    it. -/
def coloured (around : Surroundings) (a : Arguments) : Bool :=
  match around.env.get? "CLICOLOR_FORCE" with
  | some v => v ≠ ['0'] && !a.noColour
  | none => false

/-- The name of the program in front of a complaint. -/
def signature (colour : Bool) : Text :=
  let name := "tundash:".toList
  if colour then "\x1b[1;31m".toList ++ name ++ "\x1b[0m".toList else name

/-- The line that tells why a command failed. -/
def complaint (colour : Bool) (e : CommandError) : Text := signature colour ++ ' ' :: e.message

def loadConfig (around : Surroundings) (a : Arguments) : Except CommandError Config :=
  match Config.load around a.configPath with
  | .ok c => .ok c
  | .error f => .error (.operator ("invalid config: ".toList ++ f.message))

/-! ## Commands -/

/-- How a command goes: its output, or why it failed, with the records it made and the disk it
    left. -/
structure CommandRun where
  result : Except CommandError Text
  filter : LogFilter
  records : List LogRecord
  disk : Disk

/-- A command that does nothing but give its result. -/
def plainRun (around : Surroundings) (result : Except CommandError Text) : CommandRun :=
  ⟨result, .errors, [], around.disk⟩

def showConfig (around : Surroundings) (a : Arguments) : CommandRun :=
  plainRun around
    (match loadConfig around a with
      | .error e => .error e
      | .ok c =>
        match c.write with
        | .ok text => .ok (text ++ ['\n'])
        | .error f => .error (.failure f))

/-- Keep a theme in the preferences. -/
def keepTheme (store : PreferencesStore) (name : Text) : PreferencesStore × List LogRecord :=
  let (prefs, records) := store.loadOrStandard
  let (store, result, more) := store.save { prefs with theme := Theme.ofName name }
  (store, records ++ more ++
    match result with
    | .failed f =>
      [logRecord .warn "could not persist theme override" [shownField "error" f.message]]
    | _ => [])

/-- The disk of a store in a file. -/
def diskOf (store : PreferencesStore) (otherwise : Disk) : Disk :=
  match store with
  | .file _ disk => disk
  | _ => otherwise

/-- Run the dashboard where the terminal cannot be opened, for the given cause. -/
def runDashboard (around : Surroundings) (a : Arguments) (o : RunOptions) (cause : Text) :
    CommandRun :=
  match loadConfig around a with
  | .error e => plainRun around (.error e)
  | .ok c =>
    let store := PreferencesStore.file ⟨c.paths.preferencesFile, 0, 0⟩ around.disk
    let (store, records) :=
      match o.theme with
      | some name => keepTheme store name
      | none => (store, [])
    ⟨.error (.failure (.terminal cause)), .choose around.env.get? c.logging.level,
      records ++ store.loadOrStandard.2, diskOf store around.disk⟩

/-- Execute what was asked for. -/
def execute (around : Surroundings) (a : Arguments) (cause : Text) : CommandOutcome :=
  let run :=
    match a.request with
    | .config => showConfig around a
    | .run o => runDashboard around a o cause
  let lines := run.filter.lines run.records
  match run.result with
  | .ok output => ⟨0, output, lines, run.disk⟩
  | .error e => ⟨e.exitCode, [], lines ++ [complaint (coloured around a) e], run.disk⟩

/-- Call the program with some words. -/
def call (around : Surroundings) (words : List Text) (cause : Text) : CommandOutcome :=
  match Invocation.ofWords words with
  | .execute a => execute around a cause
  | .showVersion => ⟨0, version, [], around.disk⟩
  | .showHelp => ⟨0, joinWith ['\n'] (usage ++ [[]]), [], around.disk⟩
  | .refused => ⟨refusedCode, [], usage, around.disk⟩

end CommandLine
end TunnelBoard
