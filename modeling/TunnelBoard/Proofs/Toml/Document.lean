import Mathlib.Data.List.Nodup
import TunnelBoard.Proofs.Toml.Rows
/-
  What a written document means.

  As long as no key comes twice, every row adds to the end of the table at hand.  So the entries above
  all headers and the sections stand in the table of the document as they stand in the rows, one
  behind the other (`parse?_document`).

  The reader keeps the table it has built and the name of the section that it is in.  Three steps are
  all that happens to a written document: an entry above all headers, a header, and an entry below one
  (`Reading.add_top`, `add_header`, `add_inner`).  In each of them the key is new where it is put,
  which is what `IsDistinct` says of all keys at once, and it is decided by looking at them.  From the
  steps the runs follow by induction on the rows, with the table so far as the part that grows.
-/

namespace TunnelBoard
namespace Toml

/-! ## Tables

Entries and sections are written with keys that are all different, so each of them goes to the end of
its table, and the tables come out in the order in which they were written. -/

/-- Entries with values, as the reader keeps them. -/
def valueNodes (es : List (Text × Toml)) : List (Text × Node) := es.map fun e => (e.1, .value e.2)

/-- Sections with values, as the reader keeps them. -/
def sectionNodes (ss : List (Text × List (Text × Toml))) : List (Text × Node) :=
  ss.map fun s => (s.1, .table .header (valueNodes s.2))

/-- The line of an entry without points in its key. -/
def entryLine (e : Text × Toml) : Line := .entry ⟨[e.1], e.2⟩

/-- The lines of a section. -/
def sectionLines (s : Text × List (Text × Toml)) : List Line := .table [s.1] :: s.2.map entryLine

section

variable {front inner : List (Text × Node)} {k : Text} {es : List (Text × Toml)}
  {ss : List (Text × List (Text × Toml))}

/-- Nothing is found under a key that is not there. -/
theorem lookup_eq_none_of_not_mem (h : k ∉ front.map Prod.fst) : front.lookup k = none := by
  rw [List.lookup_eq_none_iff]
  intro e he
  rw [bne_iff_ne]
  rintro rfl
  exact h (List.mem_map_of_mem he)

/-- What was put at the end of a table is found under its key, if that is new. -/
theorem lookup_last (h : k ∉ front.map Prod.fst) (node : Node) :
    (front ++ [(k, node)]).lookup k = some node := by
  rw [List.lookup_append, lookup_eq_none_of_not_mem h, List.lookup_cons_self]
  rfl

/-- A new key comes to the end of its table. -/
theorem Table.put_new (h : k ∉ front.map Prod.fst) (origin : Origin) (node : Node) :
    Table.put ⟨origin, front⟩ k node = ⟨origin, front ++ [(k, node)]⟩ := by
  rw [Table.put, lookup_eq_none_of_not_mem h]
  rfl

/-- The key at the end of a table stays there. -/
theorem Table.put_last (h : k ∉ front.map Prod.fst) (origin : Origin) (old node : Node) :
    Table.put ⟨origin, front ++ [(k, old)]⟩ k node = ⟨origin, front ++ [(k, node)]⟩ := by
  have hfront : front.map (fun e => if e.1 = k then (k, node) else e) = front := by
    refine (List.map_congr_left fun e he => ?_).trans (List.map_id front)
    have hne : ¬ e.1 = k := by
      rintro rfl
      exact h (List.mem_map_of_mem he)
    exact if_neg hne
  rw [Table.put, lookup_last h]
  show Table.mk origin ((front ++ [(k, old)]).map _) = _
  rw [List.map_append, hfront, List.map_singleton, if_pos rfl]

/-- An entry with a new key goes to the end of its table. -/
theorem Table.addEntry_new (h : k ∉ inner.map Prod.fst) (v : Toml) :
    Table.addEntry ⟨[k], v⟩ ⟨.header, inner⟩ = some ⟨.header, inner ++ [(k, .value v)]⟩ := by
  show Table.give k v ⟨.header, inner⟩ = _
  rw [Table.give, lookup_eq_none_of_not_mem h, Table.put_new h]

/-- An entry above all headers. -/
theorem Reading.add_top (h : k ∉ front.map Prod.fst) (v : Toml) :
    Reading.add ⟨⟨.header, front⟩, []⟩ (entryLine (k, v)) =
      some ⟨⟨.header, front ++ [(k, .value v)]⟩, []⟩ := by
  show (Table.addEntry ⟨[k], v⟩ ⟨.header, front⟩).map _ = _
  rw [Table.addEntry_new h]
  rfl

/-- An entry in the newest section. -/
theorem Reading.add_inner {name : Text} (hname : name ∉ front.map Prod.fst) (h : k ∉ inner.map Prod.fst)
    (v : Toml) :
    Reading.add ⟨⟨.header, front ++ [(name, .table .header inner)]⟩, [name]⟩ (entryLine (k, v)) =
      some ⟨⟨.header, front ++ [(name, .table .header (inner ++ [(k, .value v)]))]⟩, [name]⟩ := by
  show (Table.change false (Table.addEntry ⟨[k], v⟩) [name] ⟨.header, _⟩).map _ = _
  rw [Table.change, lookup_last hname]
  show (((Table.addEntry ⟨[k], v⟩ ⟨.header, inner⟩).map _).map _) = _
  rw [Table.addEntry_new h, Option.map_some, Table.put_last hname]
  rfl

/-- The header of a new section. -/
theorem Reading.add_header (h : k ∉ front.map Prod.fst) (here : List Text) :
    Reading.add ⟨⟨.header, front⟩, here⟩ (.table [k]) =
      some ⟨⟨.header, front ++ [(k, .table .header [])]⟩, [k]⟩ := by
  show (Table.openTable k ⟨.header, front⟩).map _ = _
  rw [Table.openTable, lookup_eq_none_of_not_mem h, Table.put_new h]
  rfl

/-- Keys that are all different: the next one is new, and it may be counted among those that have been
    read. -/
theorem nodup_cons_append {α : Type} {a : α} {l l' : List α} (h : (l ++ a :: l').Nodup) :
    a ∉ l ∧ (l ++ [a] ++ l').Nodup := by
  refine ⟨fun hmem => ?_, ?_⟩
  · exact List.disjoint_of_nodup_append h hmem List.mem_cons_self
  · rw [List.append_assoc]
    exact h

/-- The entries above all headers. -/
theorem foldlM_top (h : (front.map Prod.fst ++ es.map Prod.fst).Nodup) :
    (es.map entryLine).foldlM Reading.add ⟨⟨.header, front⟩, []⟩ =
      some ⟨⟨.header, front ++ valueNodes es⟩, []⟩ := by
  induction es generalizing front with
  | nil =>
    show some _ = some _
    rw [valueNodes, List.map_nil, List.append_nil]
  | cons e es ih =>
    obtain ⟨hfresh, hrest⟩ := nodup_cons_append h
    have hnext : ((front ++ [(e.1, Node.value e.2)]).map Prod.fst ++ es.map Prod.fst).Nodup := by
      rw [List.map_append]
      exact hrest
    rw [List.map_cons, List.foldlM_cons, Reading.add_top hfresh]
    show (es.map entryLine).foldlM Reading.add _ = _
    rw [ih hnext, List.append_assoc]
    rfl

/-- The entries below a header.  The sections in front stay as they are. -/
theorem foldlM_inner {name : Text} (hname : name ∉ front.map Prod.fst)
    (h : (inner.map Prod.fst ++ es.map Prod.fst).Nodup) :
    (es.map entryLine).foldlM Reading.add ⟨⟨.header, front ++ [(name, .table .header inner)]⟩, [name]⟩ =
      some ⟨⟨.header, front ++ [(name, .table .header (inner ++ valueNodes es))]⟩, [name]⟩ := by
  induction es generalizing inner with
  | nil =>
    show some _ = some _
    rw [valueNodes, List.map_nil, List.append_nil]
  | cons e es ih =>
    obtain ⟨hfresh, hrest⟩ := nodup_cons_append h
    have hnext : ((inner ++ [(e.1, Node.value e.2)]).map Prod.fst ++ es.map Prod.fst).Nodup := by
      rw [List.map_append]
      exact hrest
    rw [List.map_cons, List.foldlM_cons, Reading.add_inner hname hfresh]
    show (es.map entryLine).foldlM Reading.add _ = _
    rw [ih hnext, List.append_assoc]
    rfl

/-- Section after section: each header opens a new table at the end, and the entries below it go
    there. -/
theorem foldlM_sections (h : (front.map Prod.fst ++ ss.map Prod.fst).Nodup)
    (hin : ∀ s ∈ ss, (s.2.map Prod.fst).Nodup) (here : List Text) :
    ∃ here', (ss.flatMap sectionLines).foldlM Reading.add ⟨⟨.header, front⟩, here⟩ =
      some ⟨⟨.header, front ++ sectionNodes ss⟩, here'⟩ := by
  induction ss generalizing front here with
  | nil =>
    rw [sectionNodes, List.map_nil, List.append_nil]
    exact ⟨here, rfl⟩
  | cons s ss ih =>
    obtain ⟨hfresh, hrest⟩ := nodup_cons_append h
    have hnext : ((front ++ [(s.1, Node.table .header (valueNodes s.2))]).map Prod.fst ++
        ss.map Prod.fst).Nodup := by
      rw [List.map_append]
      exact hrest
    obtain ⟨here', hread⟩ := ih hnext (fun s hs => hin s (List.mem_cons_of_mem _ hs)) [s.1]
    -- the lines of the next section, read from where the others ended
    have hsection : (sectionLines s).foldlM Reading.add ⟨⟨.header, front⟩, here⟩ =
        some ⟨⟨.header, front ++ [(s.1, .table .header (valueNodes s.2))]⟩, [s.1]⟩ := by
      rw [sectionLines, List.foldlM_cons, Reading.add_header hfresh]
      exact foldlM_inner hfresh (hin s List.mem_cons_self)
    refine ⟨here', ?_⟩
    rw [List.flatMap_cons, List.foldlM_append, hsection]
    show (ss.flatMap sectionLines).foldlM Reading.add _ = _
    rw [hread, List.append_assoc]
    rfl

end

/-! ## Meaning -/

/-- The meaning of a table is that of each of its nodes, in their order. -/
theorem entriesToToml_eq_map (es : List (Text × Node)) :
    entriesToToml es = es.map fun e => (e.1, e.2.toToml) := by
  induction es with
  | nil => rfl
  | cons e es ih => rw [entriesToToml, ih, List.map_cons]

/-- Entries with values mean what they were made of. -/
theorem entriesToToml_valueNodes (es : List (Text × Toml)) : entriesToToml (valueNodes es) = es := by
  rw [entriesToToml_eq_map, valueNodes, List.map_map]
  exact (List.map_congr_left fun e _ => by rw [Function.comp_apply, Node.toToml]; rfl).trans (List.map_id es)

/-- Sections mean the tables of their entries. -/
theorem entriesToToml_sectionNodes (ss : List (Text × List (Text × Toml))) :
    entriesToToml (sectionNodes ss) = ss.map fun s => (s.1, .table s.2) := by
  rw [entriesToToml_eq_map, sectionNodes, List.map_map]
  refine List.map_congr_left fun s _ => ?_
  rw [Function.comp_apply, Node.toToml, entriesToToml_valueNodes]

/-- Lines mean their sections, behind the entries above all headers, if no key comes twice. -/
theorem ofLines_sections {top : List (Text × Toml)} {ss : List (Text × List (Text × Toml))}
    (h : (top.map Prod.fst ++ ss.map Prod.fst).Nodup) (hin : ∀ s ∈ ss, (s.2.map Prod.fst).Nodup) :
    ofLines (top.map entryLine ++ ss.flatMap sectionLines) =
      some (.table (top ++ ss.map fun s => (s.1, .table s.2))) := by
  have htop : (top.map entryLine).foldlM Reading.add ⟨Table.empty .header, []⟩ =
      some ⟨⟨.header, valueNodes top⟩, []⟩ := foldlM_top (List.Nodup.of_append_left h)
  have hnames : ((valueNodes top).map Prod.fst ++ ss.map Prod.fst).Nodup := by
    rw [valueNodes, List.map_map]
    exact h
  -- which section is the last one does not matter in the end
  obtain ⟨here, hread⟩ := foldlM_sections hnames hin []
  unfold ofLines
  rw [List.foldlM_append, htop]
  show (((ss.flatMap sectionLines).foldlM Reading.add _).map _) = _
  rw [hread, Option.map_some, entriesToToml_eq_map, List.map_append,
    ← entriesToToml_eq_map, ← entriesToToml_eq_map, entriesToToml_valueNodes, entriesToToml_sectionNodes]

/-! ## Documents -/

/-- The entries of some rows up to the first header, and the sections behind them. -/
def partsOf : List Row → List (Text × Toml) × List (Text × List (Text × Toml))
  | [] => ([], [])
  | .blank :: rows => partsOf rows
  | .header key :: rows => ([], (key.toList, (partsOf rows).1) :: (partsOf rows).2)
  | .entry key d :: rows => ((key.toList, d.toToml) :: (partsOf rows).1, (partsOf rows).2)

/-- The table of some rows. -/
def tableOf (rows : List Row) : List (Text × Toml) :=
  (partsOf rows).1 ++ (partsOf rows).2.map fun s => (s.1, .table s.2)

/-- The keys of some rows up to the first header, and the sections behind them with their keys. -/
def keysOf (rows : List Row) : List Text × List (Text × List Text) :=
  ((partsOf rows).1.map Prod.fst, (partsOf rows).2.map fun s => (s.1, s.2.map Prod.fst))

/-- Whether no key comes twice in one table. -/
def IsDistinct (keys : List Text × List (Text × List Text)) : Prop :=
  (keys.1 ++ keys.2.map Prod.fst).Nodup ∧ ∀ s ∈ keys.2, s.2.Nodup

instance (keys : List Text × List (Text × List Text)) : Decidable (IsDistinct keys) :=
  inferInstanceAs (Decidable (_ ∧ _))

/-- Rows say what their parts say. -/
theorem lines_eq_parts (rows : List Row) : rows.filterMap Row.line? =
    (partsOf rows).1.map entryLine ++ (partsOf rows).2.flatMap sectionLines := by
  induction rows with
  | nil => rfl
  | cons r rows ih =>
    cases r with
    | blank => exact ih
    | header key => exact congrArg (Line.table [key.toList] :: ·) ih
    | entry key d => exact congrArg (entryLine (key.toList, d.toToml) :: ·) ih

/-- **A document is read as the table that its rows make**, whatever is written in them. -/
theorem parse?_document {rows : List Row} (h : ∀ r ∈ rows, r.Fits) (hkeys : IsDistinct (keysOf rows)) :
    parse? (rows.flatMap Row.text) = some (.table (tableOf rows)) := by
  obtain ⟨hnames, hin⟩ := hkeys
  have hnames' : ((partsOf rows).1.map Prod.fst ++ (partsOf rows).2.map Prod.fst).Nodup := by
    rw [keysOf, List.map_map] at hnames
    exact hnames
  rw [parse?_rows h, lines_eq_parts]
  refine ofLines_sections hnames' fun s hs => ?_
  exact hin (s.1, s.2.map Prod.fst) (List.mem_map.2 ⟨s, hs, rfl⟩)

end Toml
end TunnelBoard
