import TunnelBoard.Preferences.Basic
/-
  The screens of a monitor, the rows of the settings screen, and the question whether to
  stop.
-/

namespace TunnelBoard

inductive Screen where
  | dataplane | settings | logs
  deriving DecidableEq, Repr

namespace Screen

/-- All screens, in the order of their tabs. -/
def all : List Screen := [dataplane, settings, logs]

def index : Screen → Nat
  | dataplane => 0
  | settings => 1
  | logs => 2

def label : Screen → Text
  | dataplane => "Dataplane".toList
  | settings => "Settings".toList
  | logs => "Logs".toList

def next : Screen → Screen
  | dataplane => settings
  | settings => logs
  | logs => dataplane

def prev : Screen → Screen
  | dataplane => logs
  | settings => dataplane
  | logs => settings

end Screen

/-- The answers to the question whether to stop the data plane. -/
inductive ConfirmChoice where
  | goOn | stop
  deriving DecidableEq, Repr

namespace ConfirmChoice

def toggled : ConfirmChoice → ConfirmChoice
  | goOn => stop
  | stop => goOn

def label : ConfirmChoice → Text
  | goOn => "Continue".toList
  | stop => "Stop".toList

end ConfirmChoice

/-- The rows of the settings screen. -/
inductive SettingsRow where
  | theme | units | statsPanel | trafficGraph | footer
  deriving DecidableEq, Repr

namespace SettingsRow

/-- All rows, from top to bottom. -/
def all : List SettingsRow := [theme, units, statsPanel, trafficGraph, footer]

def index : SettingsRow → Nat
  | theme => 0
  | units => 1
  | statsPanel => 2
  | trafficGraph => 3
  | footer => 4

def label : SettingsRow → Text
  | theme => "Theme".toList
  | units => "Units".toList
  | statsPanel => "Stats panel".toList
  | trafficGraph => "Traffic graph".toList
  | footer => "Footer".toList

/-- The row below, going round. -/
def next : SettingsRow → SettingsRow
  | theme => units
  | units => statsPanel
  | statsPanel => trafficGraph
  | trafficGraph => footer
  | footer => theme

/-- The row above, going round. -/
def prev : SettingsRow → SettingsRow
  | theme => footer
  | units => theme
  | statsPanel => units
  | trafficGraph => statsPanel
  | footer => trafficGraph

/-- The preferences after one change in this row. -/
def change (forward : Bool) (p : Preferences) : SettingsRow → Preferences
  | theme => { p with theme := if forward then p.theme.next else p.theme.prev }
  | units => { p with unit := p.unit.toggled }
  | statsPanel => { p with showStats := !p.showStats }
  | trafficGraph => { p with showGraph := !p.showGraph }
  | footer => { p with showFooter := !p.showFooter }

end SettingsRow
end TunnelBoard
