import TunnelBoard.Preferences.Basic
import TunnelBoard.Proofs.Toml.Document
/-
  Preferences survive their form in a file.

  The file has an entry for every part, and all of them fit, but for the version of the layout if it
  is larger than the file can hold.  As with other documents, three things are shown: the text is that
  of the rows, the rows fit and their keys are different, and the parts can be taken out of the table
  that the rows make.
-/

namespace TunnelBoard

open Toml (Row)

/-- A theme is known by its name. -/
theorem Theme.ofName_name (t : Theme) : ofName t.name = t := by
  cases t with
  | midnight | daylight | solarized | forest | mono => rfl

namespace Preferences

variable {p : Preferences}

/-- A unit is known by its name. -/
theorem oneOf?_unit (u : StatsUnit) : Toml.oneOf? units (.string u.name) = some u := by
  cases u with
  | decimal | binary => rfl

/-- The rows of the file. -/
def rows (p : Preferences) : List Row :=
  [.entry "schema_version" (.number p.schemaVersion), .entry "theme" (.text p.theme.name),
    .entry "stats_unit" (.text p.unit.name), .entry "show_stats" (.flag p.showStats),
    .entry "show_graph" (.flag p.showGraph), .entry "show_footer" (.flag p.showFooter)]

/-- All parts are taken out of the table of the document. -/
theorem ofToml?_rows (h : p.schemaVersion ≤ largestVersion) :
    ofToml? (.table (Toml.tableOf p.rows)) = some p := by
  show (do
    let schemaVersion ← Toml.nat? largestVersion (.integer p.schemaVersion)
    let theme ← some (Theme.ofName p.theme.name)
    let unit ← Toml.oneOf? units (.string p.unit.name)
    let showStats ← some p.showStats
    let showGraph ← some p.showGraph
    let showFooter ← some p.showFooter
    pure (Preferences.mk schemaVersion theme unit showStats showGraph showFooter)) = _
  rw [Toml.nat?_integer h, Theme.ofName_name, oneOf?_unit]
  rfl

/-- The text of preferences is the text of their rows. -/
theorem write_eq_rows (p : Preferences) : p.write = p.rows.flatMap Row.text := by
  simp only [write, rows, Row.text, Toml.Datum.write, List.flatMap_cons, List.flatMap_nil,
    List.append_assoc, List.append_nil]

/-- The rows can be written as they are. -/
theorem rows_fit (h : p.schemaVersion ≤ largestVersion) : ∀ r ∈ p.rows, r.Fits := by
  have hlargest : largestVersion ≤ Toml.largest := by decide
  simp only [rows, Row.Fits, Toml.Datum.Fits, List.forall_mem_cons, List.not_mem_nil, false_implies,
    implies_true, and_true]
  exact ⟨⟨by decide, Nat.le_trans h hlargest⟩, by decide, by decide, by decide, by decide, by decide⟩

/-- The keys do not depend on what is written. -/
theorem distinct_rows (p : Preferences) : Toml.IsDistinct (Toml.keysOf p.rows) := by
  -- so it is enough to look at one set of preferences
  show Toml.IsDistinct (Toml.keysOf standard.rows)
  decide

/-- **Preferences are read back as they were written.** -/
theorem parse?_write (h : p.schemaVersion ≤ largestVersion) : parse? p.write = some p := by
  rw [parse?, write_eq_rows, Toml.parse?_document (rows_fit h) p.distinct_rows]
  exact ofToml?_rows h

end Preferences
end TunnelBoard
