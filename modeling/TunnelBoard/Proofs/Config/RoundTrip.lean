import TunnelBoard.Config.Basic
import TunnelBoard.Proofs.Toml.Document
/-
  A configuration survives its form in a file.

  The file has a row for every part of a configuration, so no standard value stands in for a part that
  was lost on the way: each part is taken out of the table that its rows make.  Only numbers that a
  document cannot hold are in the way, and then nothing is written.

  The theory of documents (`Toml.parse?_document`) says what a reader makes of rows that are written
  one below the other.  So what is to be shown here is threefold: the text that is written is the text
  of such rows (`document_eq_rows`); the rows can be written as they are, and no key comes twice
  (`rows_fit`, `distinct_rows`); and the configuration can be taken out of the table that the rows
  make, section by section (`ofToml?_rows`).  Texts may hold anything, and so may the list of modes,
  including a mode twice or none at all.  Whether a number fits is all that matters (`Config.Fits`).
-/

namespace TunnelBoard

open Toml (Row)

/-! ## Rows -/

/-- The rows of the section on the dashboard. -/
def DashboardConfig.rows (d : DashboardConfig) : List Row :=
  [.entry "tick_interval_ms" (.number d.tickInterval),
    .entry "log_poll_interval_ms" (.number d.logPollInterval),
    .entry "log_tail_lines" (.number d.logTailLines), .entry "max_card_width" (.number d.maxCardWidth)]

/-- The rows of the section on logging. -/
def LoggingConfig.rows (l : LoggingConfig) : List Row :=
  [.entry "capacity" (.number l.capacity), .entry "level" (.text l.level)]

/-- The row with the modes that are offered. -/
def Config.modeRows (ms : List Mode) : List Row := [.entry "available" (.texts (ms.map Mode.name))]

/-- The rows of the section on paths. -/
def PathsConfig.rows (p : PathsConfig) : List Row :=
  [.entry "config_file" (.text p.configFile), .entry "preferences_file" (.text p.preferencesFile)]

/-- The rows of the file. -/
def Config.rows (c : Config) : List Row :=
  .header "dashboard" :: c.dashboard.rows ++
    .blank :: .header "logging" :: c.logging.rows ++
    .blank :: .header "modes" :: modeRows c.modes ++
    .blank :: .header "paths" :: c.paths.rows

/-- Whether a document can hold all numbers of a configuration. -/
structure Config.Fits (c : Config) : Prop where
  tickInterval : c.dashboard.tickInterval ≤ Toml.largest
  logPollInterval : c.dashboard.logPollInterval ≤ Toml.largest
  logTailLines : c.dashboard.logTailLines ≤ Toml.largest
  maxCardWidth : c.dashboard.maxCardWidth ≤ Toml.largest
  capacity : c.logging.capacity ≤ Toml.largest

/-! ## Taking the parts out -/

section

variable {c : Config}

/-- The section on the dashboard is taken out of its rows, if its numbers fit. -/
theorem DashboardConfig.ofToml?_rows (h : c.Fits) :
    ofToml? (.table (Toml.tableOf c.dashboard.rows)) = some c.dashboard := by
  -- the table has the four keys that are looked up, so only the numbers are left to be read
  show (do
    let tickInterval ← Toml.nat? Toml.largest (.integer c.dashboard.tickInterval)
    let logPollInterval ← Toml.nat? Toml.largest (.integer c.dashboard.logPollInterval)
    let logTailLines ← Toml.nat? Toml.largest (.integer c.dashboard.logTailLines)
    let maxCardWidth ← Toml.nat? Toml.largest (.integer c.dashboard.maxCardWidth)
    pure (DashboardConfig.mk tickInterval logPollInterval logTailLines maxCardWidth)) = _
  rw [Toml.nat?_integer h.tickInterval, Toml.nat?_integer h.logPollInterval,
    Toml.nat?_integer h.logTailLines, Toml.nat?_integer h.maxCardWidth]
  rfl

/-- The section on logging is taken out of its rows. -/
theorem LoggingConfig.ofToml?_rows (h : c.Fits) :
    ofToml? (.table (Toml.tableOf c.logging.rows)) = some c.logging := by
  show (do
    let capacity ← Toml.nat? Toml.largest (.integer c.logging.capacity)
    let level ← some c.logging.level
    pure (LoggingConfig.mk capacity level)) = _
  rw [Toml.nat?_integer h.capacity]
  rfl

/-- A mode is known by its name. -/
theorem Mode.oneOf?_name (m : Mode) : Toml.oneOf? Mode.named (.string m.name) = some m := by
  cases m with
  | tun => rfl
  | proxy => rfl

/-- The modes are taken out of their row, as many and in the same order. -/
theorem Config.modesOfToml?_rows (ms : List Mode) :
    modesOfToml? (.table (Toml.tableOf (modeRows ms))) = some ms := by
  show Toml.list? (Toml.oneOf? Mode.named) (.array ((ms.map Mode.name).map .string)) = _
  rw [List.map_map]
  exact Toml.list?_map Mode.oneOf?_name ms

/-- The paths are taken out of their rows.  Whose home directory it is does not matter, since both are
    there. -/
theorem PathsConfig.ofToml?_rows (home : Option Text) (p : PathsConfig) :
    ofToml? home (.table (Toml.tableOf p.rows)) = some p := rfl

/-- Every part of a configuration is taken out of the table of the document. -/
theorem Config.ofToml?_rows (h : c.Fits) (home : Option Text) :
    ofToml? home (.table (Toml.tableOf c.rows)) = some c := by
  -- the four headers are found, and below each of them the rows of its section
  show (do
    let dashboard ← DashboardConfig.ofToml? (.table (Toml.tableOf c.dashboard.rows))
    let logging ← LoggingConfig.ofToml? (.table (Toml.tableOf c.logging.rows))
    let modes ← modesOfToml? (.table (Toml.tableOf (modeRows c.modes)))
    let paths ← PathsConfig.ofToml? home (.table (Toml.tableOf c.paths.rows))
    pure (Config.mk dashboard logging modes paths)) = _
  rw [DashboardConfig.ofToml?_rows h, LoggingConfig.ofToml?_rows h, modesOfToml?_rows,
    PathsConfig.ofToml?_rows]
  rfl

end

/-! ## Writing and reading -/

namespace Config

variable {c : Config}

/-- The text of a configuration is the text of its rows. -/
theorem document_eq_rows (c : Config) : c.document = c.rows.flatMap Row.text := by
  simp only [document, rows, DashboardConfig.rows, LoggingConfig.rows, modeRows, PathsConfig.rows,
    Row.text, Toml.Datum.write, List.flatMap_cons, List.flatMap_nil, List.append_assoc,
    List.cons_append, List.append_nil, List.nil_append, List.map_map]
  rfl

/-- The rows can be written as they are: the keys need no quotation marks, and the numbers fit. -/
theorem rows_fit (h : c.Fits) : ∀ r ∈ c.rows, r.Fits := by
  simp only [rows, DashboardConfig.rows, LoggingConfig.rows, modeRows, PathsConfig.rows,
    List.cons_append, List.nil_append, List.forall_mem_cons, List.not_mem_nil, false_implies,
    implies_true, and_true, Row.Fits, Toml.Datum.Fits, true_and]
  exact ⟨by decide, ⟨by decide, h.tickInterval⟩, ⟨by decide, h.logPollInterval⟩,
    ⟨by decide, h.logTailLines⟩, ⟨by decide, h.maxCardWidth⟩, by decide, ⟨by decide, h.capacity⟩,
    by decide⟩

/-- The keys do not depend on what is written. -/
theorem distinct_rows (c : Config) : Toml.IsDistinct (Toml.keysOf c.rows) := by
  -- so it is enough to look at one configuration
  show Toml.IsDistinct (Toml.keysOf (standard none).rows)
  decide

/-- The text of a configuration gives the configuration back. -/
theorem parse?_document (h : c.Fits) (home : Option Text) : parse? home c.document = some c := by
  rw [parse?, document_eq_rows, Toml.parse?_document (rows_fit h) c.distinct_rows]
  exact ofToml?_rows h home

/-- Whether all numbers fit is what is asked before writing. -/
theorem fits_iff : c.sizes.all (· ≤ Toml.largest) = true ↔ c.Fits := by
  simp only [sizes, List.all_cons, List.all_nil, Bool.and_eq_true, decide_eq_true_eq, and_true]
  constructor
  · rintro ⟨htick, hpoll, htail, hwidth, hcapacity⟩
    exact ⟨htick, hpoll, htail, hwidth, hcapacity⟩
  · rintro ⟨htick, hpoll, htail, hwidth, hcapacity⟩
    exact ⟨htick, hpoll, htail, hwidth, hcapacity⟩

/-- A configuration whose numbers fit is written. -/
theorem write_of_fits (h : c.Fits) : c.write = .ok c.document := by
  rw [write, if_pos (fits_iff.2 h)]

/-- A number that no document can hold is reported. -/
theorem write_of_not_fits (h : ¬ c.Fits) : ∃ e, c.write = .error e ∧ e.code = "TUN-2101".toList := by
  rw [write, if_neg fun hall => h (fits_iff.1 hall)]
  exact ⟨_, rfl, rfl⟩

/-- **A configuration is read back as it was written**, whatever is in its texts and its list of modes,
    and it can be written unless one of its numbers is too large for a document. -/
theorem read_back_as_written (c : Config) :
    ((∃ t, c.write = .ok t) ↔ c.Fits) ∧
      (¬ c.Fits → ∃ e, c.write = .error e ∧ e.code = "TUN-2101".toList) ∧
      ∀ t, c.write = .ok t → ∀ home, parse? home t = some c := by
  have hfits : ∀ t, c.write = .ok t → c.Fits := by
    intro t ht
    by_contra h
    obtain ⟨e, he, -⟩ := write_of_not_fits h
    exact nomatch ht.symm.trans he
  have hwritten : c.Fits → ∃ t, c.write = .ok t := fun h => ⟨c.document, write_of_fits h⟩
  refine ⟨⟨fun ⟨t, ht⟩ => hfits t ht, hwritten⟩, write_of_not_fits, ?_⟩
  intro t ht home
  have h := hfits t ht
  obtain rfl : c.document = t := Except.ok.inj ((write_of_fits h).symm.trans ht)
  exact parse?_document h home

end Config
end TunnelBoard
