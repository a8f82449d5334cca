import TunnelBoard.Config.Load
import TunnelBoard.Proofs.Config.Variables
import TunnelBoard.Proofs.Disk.Frame
import TunnelBoard.Proofs.Text.Utf8
import TunnelBoard.Proofs.Toml.Document
/-
  Which layer each part of a configuration comes from, and which configurations are accepted.

  A configuration has three layers.  A part of it is what its variable says; else what the file says
  under its key; else the standard value.  The file layer is a document, or nothing where no file has
  to be there.  The specification is written down without the loader: `Config.said` goes from a
  document to a configuration key by key, `Config.layered` puts the variables over that, and
  `Config.Accepted` says in five lines what the loader checks one after the other.  What is accepted
  is said of the layers together, since the tail of the log and its capacity may come from different
  ones.

  The crux is that a reader which gives up at the first value it cannot take reads, where it does not
  give up, the very parts that `said` names (`eq_said`, one for each section and one for the whole).
  There the order of the checks, the default of each part and the two ways to write a section (a
  table, or an array in the order of the fields) come together once.  After that the loader is a
  composition (`load_eq`), and the theorem at the end, `loaded_from_layers`, is read off the three
  cases that are left: a variable that cannot be read, a configuration that is not accepted, and one
  that is.
-/

namespace TunnelBoard

open Override

/-! ## The file

Each section of the file is read by parts, and each part by name.  What is missing is standard, and
what is there and cannot be read makes the whole reading fail, so the sections have one lemma in
common. -/

namespace Toml

/-- A named part of a value: under its key in a table, at its place in an array. -/
def part? (names : List String) (name : String) : Toml → Option Toml
  | table entries => entries.lookup name.toList
  | array items => items[names.idxOf name]?
  | _ => none

section

variable {α β : Type} {v : Toml} {names : List String} {parts : List (Option Toml)}

/-- What a section is split into is, for each of its names, what stands under that name.  In an array
    the place takes the part of the name, so the names have to be different. -/
theorem parts?_eq (hnames : names.Nodup) (h : v.parts? names = some parts) :
    parts = names.map fun name => v.part? names name := by
  cases v with
  | table entries => exact (Option.some.inj h).symm
  | moment written => exact (Option.some.inj h).symm
  | array items =>
    obtain rfl := Option.some.inj h
    refine List.ext_getElem (by simp) fun i hi hi' => ?_
    simp [part?, hnames.idxOf_getElem]
  | string | integer | float | boolean => exact nomatch h

/-- A part that is read has the value that is there, or its default where there is none.  A value that
    is there and cannot be read is no default: then the whole reading fails. -/
theorem eq_of_partOr {default a : α} {take : Toml → Option α} {part : Option Toml}
    (h : partOr default take part = some a) : a = (part.bind take).getD default := by
  cases part with
  | none => exact (Option.some.inj h).symm
  | some v => rw [Option.bind_some, show take v = some a from h, Option.getD_some]

/-- A reading by parts gives what is said of each part, if it does so for a value that is there and the
    default is said where there is none. -/
theorem eq_of_partOr_parts {default a : α} {take : Toml → Option α} {part : Option Toml}
    {said : Option Toml → α} (h : partOr default take part = some a) (hnone : said none = default)
    (hsome : ∀ v, take v = some a → a = said (some v)) : a = said part := by
  cases part with
  | none => exact (Option.some.inj h).symm.trans hnone.symm
  | some v => exact hsome v h

end

end Toml

/-- What a section of the file says; standard values where it says nothing. -/
def DashboardConfig.said (group : Option Toml) : DashboardConfig :=
  let keys := ["tick_interval_ms", "log_poll_interval_ms", "log_tail_lines", "max_card_width"]
  let size? key := (group.bind (Toml.part? keys key)).bind Toml.size?
  { tickInterval := (size? "tick_interval_ms").getD standard.tickInterval
    logPollInterval := (size? "log_poll_interval_ms").getD standard.logPollInterval
    logTailLines := (size? "log_tail_lines").getD standard.logTailLines
    maxCardWidth := (size? "max_card_width").getD standard.maxCardWidth }

/-- What the section on logging says. -/
def LoggingConfig.said (group : Option Toml) : LoggingConfig :=
  let part? key := group.bind (Toml.part? ["capacity", "level"] key)
  { capacity := ((part? "capacity").bind Toml.size?).getD standard.capacity
    level := ((part? "level").bind Toml.text?).getD standard.level }

/-- The modes that a file offers, all of them if it says nothing. -/
def Config.modesSaid (group : Option Toml) : List Mode :=
  let part? key := group.bind (Toml.part? ["available"] key)
  ((part? "available").bind (Toml.list? (Toml.oneOf? Mode.named))).getD Mode.all

/-- What the section on paths says.  The standard paths depend on the home directory. -/
def PathsConfig.said (home : Option Text) (group : Option Toml) : PathsConfig :=
  let path? key := (group.bind (Toml.part? ["config_file", "preferences_file"] key)).bind Toml.text?
  { configFile := (path? "config_file").getD (standard home).configFile
    preferencesFile := (path? "preferences_file").getD (standard home).preferencesFile }

/-- What a document says; standard values where it says nothing, or where there is none. -/
def Config.said (home : Option Text) (document : Option Toml) : Config :=
  let group? name := document.bind (Toml.part? ["dashboard", "logging", "modes", "paths"] name)
  { dashboard := .said (group? "dashboard")
    logging := .said (group? "logging")
    modes := modesSaid (group? "modes")
    paths := .said home (group? "paths") }

section

variable {v : Toml}

/-- The section on the dashboard is read as it says. -/
theorem DashboardConfig.eq_said {d : DashboardConfig} (h : ofToml? v = some d) : d = said (some v) := by
  unfold ofToml? at h
  split at h
  · next hparts =>
    cases Toml.parts?_eq (by decide) hparts
    simp only [Option.bind_eq_bind, Option.bind_eq_some_iff, Option.pure_def, Option.some.injEq] at h
    obtain ⟨tick, htick, poll, hpoll, tail, htail, width, hwidth, rfl⟩ := h
    rw [Toml.eq_of_partOr htick, Toml.eq_of_partOr hpoll, Toml.eq_of_partOr htail, Toml.eq_of_partOr hwidth]
    rfl
  · exact nomatch h

/-- The section on logging is read as it says. -/
theorem LoggingConfig.eq_said {l : LoggingConfig} (h : ofToml? v = some l) : l = said (some v) := by
  unfold ofToml? at h
  split at h
  · next hparts =>
    cases Toml.parts?_eq (by decide) hparts
    simp only [Option.bind_eq_bind, Option.bind_eq_some_iff, Option.pure_def, Option.some.injEq] at h
    obtain ⟨capacity, hcapacity, level, hlevel, rfl⟩ := h
    rw [Toml.eq_of_partOr hcapacity, Toml.eq_of_partOr hlevel]
    rfl
  · exact nomatch h

/-- The list of modes is read as it says, whether the modes are known being a matter of reading too. -/
theorem Config.eq_modesSaid {modes : List Mode} (h : modesOfToml? v = some modes) :
    modes = modesSaid (some v) := by
  unfold modesOfToml? at h
  split at h
  · next hparts =>
    cases Toml.parts?_eq (by decide) hparts
    exact Toml.eq_of_partOr h
  · exact nomatch h

/-- The section on paths is read as it says. -/
theorem PathsConfig.eq_said {home : Option Text} {p : PathsConfig} (h : ofToml? home v = some p) :
    p = said home (some v) := by
  unfold ofToml? at h
  split at h
  · next hparts =>
    cases Toml.parts?_eq (by decide) hparts
    simp only [Option.bind_eq_bind, Option.bind_eq_some_iff, Option.pure_def, Option.some.injEq] at h
    obtain ⟨config, hconfig, preferences, hpreferences, rfl⟩ := h
    rw [Toml.eq_of_partOr hconfig, Toml.eq_of_partOr hpreferences]
    rfl
  · exact nomatch h

/-- A document that can be read is read as it says, section by section. -/
theorem Config.eq_said {home : Option Text} {c : Config} (h : ofToml? home v = some c) :
    c = said home (some v) := by
  unfold ofToml? at h
  split at h
  · next hparts =>
    cases Toml.parts?_eq (by decide) hparts
    simp only [Option.bind_eq_bind, Option.bind_eq_some_iff, Option.pure_def, Option.some.injEq] at h
    obtain ⟨d, hd, l, hl, modes, hmodes, p, hp, rfl⟩ := h
    -- a section that is not there gives what an empty one gives, which is why the second argument is
    -- `rfl`
    rw [Toml.eq_of_partOr_parts hd rfl fun _ => DashboardConfig.eq_said,
      Toml.eq_of_partOr_parts hl rfl fun _ => LoggingConfig.eq_said,
      Toml.eq_of_partOr_parts hmodes rfl fun _ => eq_modesSaid,
      Toml.eq_of_partOr_parts hp rfl fun _ => PathsConfig.eq_said]
    rfl
  · exact nomatch h

/-- Where there is no document, everything is standard. -/
theorem Config.said_none (home : Option Text) : said home none = standard home := rfl

end

/-! ## Acceptance -/

namespace Config

/-- What a configuration has to satisfy. -/
structure Accepted (c : Config) : Prop where
  tickInterval : 50 ≤ c.dashboard.tickInterval
  logPollInterval : 50 ≤ c.dashboard.logPollInterval
  logTailLines : 1 ≤ c.dashboard.logTailLines ∧ c.dashboard.logTailLines ≤ c.logging.capacity
  maxCardWidth : 20 ≤ c.dashboard.maxCardWidth
  modes : c.modes ≠ []

/-- The checks of the loader, which stop at the first complaint, have none exactly if all conditions
    hold.  That there is room for a line at all is not among these: it follows from the tail, which
    has at least one line and fits. -/
theorem complaint?_eq_none_iff (c : Config) : c.complaint? = none ↔ c.Accepted := by
  have hite {p : Prop} [Decidable p] {details : Text} {rest : Option Text} :
      (if p then some details else rest) = none ↔ ¬ p ∧ rest = none := by
    by_cases hp : p <;> simp [hp]
  simp only [complaint?, hite, Nat.not_lt, not_or]
  constructor
  · rintro ⟨htick, hpoll, hcapacity, ⟨htail, hle⟩, hwidth, hmodes, -⟩
    exact ⟨htick, hpoll, ⟨by omega, hle⟩, hwidth, hmodes⟩
  · rintro ⟨htick, hpoll, ⟨htail, hle⟩, hwidth, hmodes⟩
    exact ⟨htick, hpoll, by omega, ⟨by omega, hle⟩, hwidth, hmodes, trivial⟩

/-- To be validated is to be accepted. -/
theorem validate_eq_ok_iff (c : Config) : c.validate = .ok () ↔ c.Accepted := by
  rw [← complaint?_eq_none_iff, validate]
  cases c.complaint? with
  | none => simp
  | some details => simp

/-! ## All layers

The file comes first and then the variables, which win over it; the checks are made on what they say
together. -/

/-- The path of the file in use. -/
def fileInUse (s : Surroundings) (path : Option Text) : Text :=
  path.getD (PathsConfig.standard s.home).configFile

/-- What the file layer is: a document in the file in use, or nothing if no file is named and the standard
    one is not there. -/
inductive IsFileLayer (s : Surroundings) (path : Option Text) : Option Toml → Prop
  | document {bytes : List UInt8} {text : Text} {v : Toml} {c : Config}
      (hread : s.disk.read (placeOf (fileInUse s path)) = .ok bytes) (htext : decode? bytes = some text)
      (hparse : Toml.parse? text = some v) (hconfig : ofToml? s.home v = some c) : IsFileLayer s path (some v)
  | absent (hpath : path = none) (hfile : s.disk.holds (placeOf (fileInUse s path)) = false) :
      IsFileLayer s path none

/-- What the file layer says, with the path in use for that of the file. -/
def ofFile (s : Surroundings) (path : Option Text) (document : Option Toml) : Config :=
  let c := said s.home document
  { c with paths := { c.paths with configFile := fileInUse s path } }

/-- What all layers say together. -/
def layered (s : Surroundings) (path : Option Text) (document : Option Toml) : Config :=
  (ofFile s path document).overridden s.nonBlank?

variable {s : Surroundings} {path : Option Text} {document : Option Toml}

/-- Loading the file layer gives what it says. -/
theorem fromFile_eq (h : IsFileLayer s path document) : fromFile s path = .ok (said s.home document) := by
  cases h with
  | document hread htext hparse hconfig =>
    rw [fromFile, ← fileInUse, if_pos (Disk.holds_of_read hread)]
    simp only [readFile, hread, htext, parse?, hparse, Option.bind_some, hconfig]
    rw [eq_said hconfig]
  | absent hpath hfile =>
    subst hpath
    rw [fromFile, ← fileInUse, hfile, said_none]
    rfl

/-- Loading goes through the layers in turn: the file, with the path in use put down, then the
    variables, then the checks. -/
theorem load_eq (h : IsFileLayer s path document) :
    load s path =
      match (ofFile s path document).override s.nonBlank? with
      | (_, some e) => .error e
      | (c, none) => c.validate.map fun _ => c := by
  rw [load, fromFile_eq h]
  rfl

/-- A variable that is set and cannot be read makes loading fail, whatever the file says. -/
theorem load_of_not_readable (h : IsFileLayer s path document)
    (hstuck : ¬ ∀ name ∈ names, ∀ raw ∈ s.nonBlank? name, Readable name raw) :
    ∃ e, load s path = .error e := by
  obtain ⟨_, name, _, raw, details, -, -, -, -, hstop⟩ :=
    override_of_not_readable hstuck (ofFile s path document)
  rw [load_eq h, hstop]
  exact ⟨_, rfl⟩

/-- If all variables can be read, it is left to the checks whether what the layers say is loaded. -/
theorem load_of_readable (h : IsFileLayer s path document)
    (hread : ∀ name ∈ names, ∀ raw ∈ s.nonBlank? name, Readable name raw) :
    load s path = (layered s path document).validate.map fun _ => layered s path document := by
  rw [load_eq h, override_of_readable hread]
  rfl

/-- What is loaded, if anything is.  Both ways of failing are excluded on the right, so it says when
    loading succeeds as well. -/
theorem load_eq_ok_iff (h : IsFileLayer s path document) {c : Config} :
    load s path = .ok c ↔
      (∀ name ∈ names, ∀ raw ∈ s.nonBlank? name, Readable name raw) ∧
        (layered s path document).Accepted ∧ c = layered s path document := by
  by_cases hread : ∀ name ∈ names, ∀ raw ∈ s.nonBlank? name, Readable name raw
  · rw [load_of_readable h hread, ← validate_eq_ok_iff]
    cases hvalid : (layered s path document).validate with
    | ok =>
      simp only [Except.map, and_iff_right hread, true_and, Except.ok.injEq]
      exact eq_comm
    | error e => simp [Except.map]
  · -- with a variable that cannot be read both sides are false
    obtain ⟨e, he⟩ := load_of_not_readable h hread
    simp only [he, hread, reduceCtorEq, false_and]

/-- The rows of a file that says one thing. -/
def tailRows : List Toml.Row := [.header "dashboard", .entry "log_tail_lines" (.number 20)]

/-- That file, with a number, a blank and a list of modes in the environment. -/
def tailSurroundings : Surroundings where
  home := none
  env :=
    [("TUNDASH_TICK_INTERVAL_MS".toList, " +250 ".toList), ("TUNDASH_LOG_LEVEL".toList, "  ".toList),
      ("TUNDASH_MODES".toList, "SOCKS,,tun".toList)]
  disk := ⟨[([['c']], .file (encode (tailRows.flatMap Toml.Row.text)))]⟩

/-- The rows can be written as they are, so the text of the file is one that the reader takes. -/
theorem tailRows_fit : ∀ r ∈ tailRows, r.Fits := by
  simp only [tailRows, List.forall_mem_cons, Toml.Row.Fits, Toml.Datum.Fits, List.not_mem_nil, false_implies,
    implies_true, and_true]
  decide

/-- The file is there and says what its rows say. -/
theorem isFileLayer_tail :
    IsFileLayer tailSurroundings (some ['c']) (some (.table (Toml.tableOf tailRows))) :=
  .document rfl (decode?_encode _) (Toml.parse?_document tailRows_fit (by decide)) rfl

/-- **A configuration is loaded exactly when every variable that is set can be read and what the layers say
    together is accepted, and then it is what the layers say.**  Overrides that stop at a variable have put
    the variables before it in place and nothing else. -/
theorem loaded_from_layers (s : Surroundings) (path : Option Text) (document : Option Toml)
    (h : IsFileLayer s path document) :
    ((∃ c, load s path = .ok c) ↔
        (∀ name ∈ names, ∀ raw, s.nonBlank? name = some raw → Readable name raw) ∧
          (layered s path document).Accepted) ∧
      (∀ c, load s path = .ok c → c = layered s path document) ∧
      ∀ lookup c c' e, override lookup c = (c', some e) →
        ∃ before name after raw details, names = before ++ name :: after ∧
          (∀ other ∈ before, ∀ raw, lookup other = some raw → Readable other raw) ∧
          lookup name = some raw ∧ ¬ Readable name raw ∧ e = Override.failure name raw details ∧
          c' = c.overridden (only before lookup) := by
  refine ⟨?_, fun c hc => ((load_eq_ok_iff h).1 hc).2.2, ?_⟩
  · constructor
    · rintro ⟨c, hc⟩
      obtain ⟨hread, haccepted, -⟩ := (load_eq_ok_iff h).1 hc
      exact ⟨hread, haccepted⟩
    · rintro ⟨hread, haccepted⟩
      exact ⟨_, (load_eq_ok_iff h).2 ⟨hread, haccepted, rfl⟩⟩
  · -- overrides that stop: a variable that could not be read is what stopped them, and it is the
    -- first
    intro lookup c c' e hstop
    have hstuck : ¬ ∀ name ∈ names, ∀ raw ∈ lookup name, Readable name raw := by
      intro hread
      rw [override_of_readable hread] at hstop
      exact nomatch congrArg Prod.snd hstop
    obtain ⟨before, name, after, raw, details, hnames, hbefore, hraw, hnot, heq⟩ :=
      override_of_not_readable hstuck c
    obtain ⟨hc, he⟩ := Prod.mk.inj (hstop.symm.trans heq)
    exact ⟨before, name, after, raw, details, hnames, hbefore, hraw, hnot, Option.some.inj he, hc⟩

/-- The layers at work: the interval comes from a variable with blanks and a sign in it, the tail from
    the file, the level from neither, since its variable is blank, and the modes from a list in which
    one goes by another name and one entry is empty. -/
theorem loaded_from_three_layers :
    load tailSurroundings (some ['c']) = .ok {
      dashboard := { DashboardConfig.standard with tickInterval := 250, logTailLines := 20 }
      logging := .standard
      modes := [.proxy, .tun]
      paths := ⟨['c'], ".tundash/preferences.toml".toList⟩ } := by
  obtain ⟨hloads, hlayers, -⟩ := loaded_from_layers tailSurroundings (some ['c']) _ isFileLayer_tail
  have hread : ∀ name ∈ names, ∀ raw ∈ tailSurroundings.nonBlank? name, Readable name raw := by
    decide +kernel
  have hvalue : layered tailSurroundings (some ['c']) (some (.table (Toml.tableOf tailRows))) = {
      dashboard := { DashboardConfig.standard with tickInterval := 250, logTailLines := 20 }
      logging := .standard
      modes := [.proxy, .tun]
      paths := ⟨['c'], ".tundash/preferences.toml".toList⟩ } := by
    decide +kernel
  rw [hvalue] at hloads hlayers
  obtain ⟨c, hc⟩ := hloads.2 ⟨hread, by decide, by decide, by decide, by decide, by decide⟩
  rw [hc, hlayers c hc]

end Config
end TunnelBoard
