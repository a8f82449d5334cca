import TunnelBoard.Style.Theme
import TunnelBoard.Toml.Printer
import TunnelBoard.Toml.Table
import TunnelBoard.Traffic.Amount
/-
  What an operator chose for the display, and its form in a file.
-/

namespace TunnelBoard

structure Preferences where
  /-- The version of the file's layout. -/
  schemaVersion : Nat
  theme : Theme
  unit : StatsUnit
  showStats : Bool
  showGraph : Bool
  showFooter : Bool
  deriving DecidableEq, Repr

namespace Preferences

/-- The version of the layout that this library writes. -/
def currentVersion : Nat := 1

/-- The largest version number a file can hold. -/
def largestVersion : Nat := Nat.pow 2 32 - 1

def standard : Preferences := ⟨currentVersion, .midnight, .decimal, true, true, true⟩

instance : Inhabited Preferences := ⟨standard⟩

/-- The lines of the file. -/
def write (p : Preferences) : Text :=
  Toml.writeEntry "schema_version" (natText p.schemaVersion)
    ++ Toml.writeEntry "theme" (Toml.writeText p.theme.name)
    ++ Toml.writeEntry "stats_unit" (Toml.writeText p.unit.name)
    ++ Toml.writeEntry "show_stats" (boolText p.showStats)
    ++ Toml.writeEntry "show_graph" (boolText p.showGraph)
    ++ Toml.writeEntry "show_footer" (boolText p.showFooter)

/-- The units by name. -/
def units : List (Text × StatsUnit) := [StatsUnit.decimal, .binary].map fun u => (u.name, u)

/-- The preferences in the table of a document.  Parts that are not there have their standard
    values, and an unknown theme is the standard one. -/
def ofToml? (v : Toml) : Option Preferences :=
  match v.parts? ["schema_version", "theme", "stats_unit", "show_stats", "show_graph",
      "show_footer"] with
  | some [version, theme, unit, stats, graph, footer] => do
    let schemaVersion ← Toml.partOr standard.schemaVersion (Toml.nat? largestVersion) version
    let theme ← Toml.partOr standard.theme (fun v => v.text?.map Theme.ofName) theme
    let unit ← Toml.partOr standard.unit (Toml.oneOf? units) unit
    let showStats ← Toml.partOr standard.showStats Toml.bool? stats
    let showGraph ← Toml.partOr standard.showGraph Toml.bool? graph
    let showFooter ← Toml.partOr standard.showFooter Toml.bool? footer
    pure { schemaVersion, theme, unit, showStats, showGraph, showFooter }
  | _ => none

/-- The preferences in a document. -/
def parse? (s : Text) : Option Preferences := (Toml.parse? s).bind ofToml?

end Preferences
end TunnelBoard
