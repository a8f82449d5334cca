import TunnelBoard.Toml.Line
/-
  What the lines of a TOML document mean together.

  Entries go into the table of the header above them.  A key with several parts makes the tables on
  the way to its last part.  A table may be opened by a header once, and may be extended by keys with
  points only if it was made by such keys; a table that only lies on the way to another one may still
  be opened.  A key may be given once.
-/

namespace TunnelBoard
namespace Toml

/-- What a table was made by. -/
inductive Origin where
  | header
  /-- A header or a key of a table further in. -/
  | passing
  | dotted
  deriving DecidableEq, Repr

/-- What a key stands for while a document is read. -/
inductive Node where
  | value (v : Toml)
  | table (origin : Origin) (entries : List (Text × Node))
  /-- An array of tables, of which the last is at hand. -/
  | elements (done : List (List (Text × Node))) (last : List (Text × Node))
  deriving Repr

/-- A table while a document is read. -/
structure Table where
  origin : Origin
  entries : List (Text × Node)
  deriving Repr

namespace Table

def empty (origin : Origin) : Table := ⟨origin, []⟩

/-- Put a node at a key: in the place of the one that is there, or at the end. -/
def put (t : Table) (k : Text) (n : Node) : Table :=
  if (t.entries.lookup k).isSome then
    { t with entries := t.entries.map fun e => if e.1 = k then (k, n) else e }
  else { t with entries := t.entries ++ [(k, n)] }

/-- Change the table at the end of a path, making the tables on the way that are not there. -/
def change (dotted : Bool) (f : Table → Option Table) : List Text → Table → Option Table
  | [], t => f t
  | k :: path, t =>
    match t.entries.lookup k with
    | none =>
      (change dotted f path (empty (if dotted then .dotted else .passing))).map fun u =>
        t.put k (.table u.origin u.entries)
    | some (.value _) => none
    | some (.elements done last) =>
      (change dotted f path ⟨.header, last⟩).map fun u => t.put k (.elements done u.entries)
    | some (.table origin entries) =>
      if dotted && origin = .header then none
      else
        (change dotted f path ⟨origin, entries⟩).map fun u =>
          t.put k (.table u.origin u.entries)

/-- Give a key a value, unless it has one. -/
def give (k : Text) (v : Toml) (t : Table) : Option Table :=
  match t.entries.lookup k with
  | none => some (t.put k (.value v))
  | some _ => none

/-- Add an entry.  A key with points reaches only into tables made by such keys. -/
def addEntry (e : Entry) (t : Table) : Option Table :=
  match e.path.getLast? with
  | none => none
  | some k =>
    let way := e.path.dropLast
    change true
      (fun t => if (t.origin == .dotted) == way.isEmpty then none else give k e.value t) way t

/-- Open the table `k`. -/
def openTable (k : Text) (t : Table) : Option Table :=
  match t.entries.lookup k with
  | none => some (t.put k (.table .header []))
  | some (.table .passing entries) => some (t.put k (.table .header entries))
  | some _ => none

/-- Start a new element of the array of tables `k`. -/
def openElement (k : Text) (t : Table) : Option Table :=
  match t.entries.lookup k with
  | none => some (t.put k (.elements [] []))
  | some (.elements done last) => some (t.put k (.elements (done ++ [last]) []))
  | some _ => none

end Table

/-- The table of a document with the path of the header above the next line. -/
structure Reading where
  root : Table
  here : List Text

namespace Reading

/-- Open a table at a path. -/
def openAt (f : Text → Table → Option Table) (path : List Text) (r : Reading) : Option Reading :=
  match path.getLast? with
  | none => none
  | some k => (Table.change false (f k) path.dropLast r.root).map (⟨·, path⟩)

/-- The table after one more line. -/
def add (r : Reading) : Line → Option Reading
  | .entry e => (Table.change false (Table.addEntry e) r.here r.root).map (⟨·, r.here⟩)
  | .table path => r.openAt Table.openTable path
  | .element path => r.openAt Table.openElement path

end Reading

mutual

/-- The value of a node. -/
def Node.toToml : Node → Toml
  | .value v => v
  | .table _ entries => .table (entriesToToml entries)
  | .elements done last => .array (elementsToToml done ++ [.table (entriesToToml last)])

def entriesToToml : List (Text × Node) → List (Text × Toml)
  | [] => []
  | (k, n) :: rest => (k, n.toToml) :: entriesToToml rest

def elementsToToml : List (List (Text × Node)) → List Toml
  | [] => []
  | entries :: rest => .table (entriesToToml entries) :: elementsToToml rest

end

/-- The inline table with some entries. -/
def inlineTable (es : List Entry) : Option Toml :=
  (es.foldlM (fun t e => Table.addEntry e t) (Table.empty .header)).map fun t =>
    .table (entriesToToml t.entries)

/-- A value in which others nest up to a depth. -/
def value : Nat → Text → Option (Toml × Text)
  | 0, s => scalar s
  | depth + 1, s =>
    match s with
    | '[' :: s => (items (value depth) (s.length + 1) s).map fun r => (.array r.1, r.2)
    | '\x7b' :: s =>
      match skipSpace s with
      | '\x7d' :: s => some (.table [], s)
      | s =>
        match entries (value depth) (s.length + 1) s with
        | none => none
        | some (es, s) => (inlineTable es).map (·, s)
    | s => scalar s

/-- The table of some lines. -/
def ofLines (ls : List Line) : Option Toml :=
  (ls.foldlM Reading.add ⟨Table.empty .header, []⟩).map fun r =>
    .table (entriesToToml r.root.entries)

/-- A text without the byte-order mark in front. -/
def dropMark : Text → Text
  | '\ufeff' :: s => s
  | s => s

/-- The table of a document, if it is one. -/
def parse? (s : Text) : Option Toml :=
  let s := unifyBreaks (dropMark s)
  (lines (value deepest) (s.length + 1) s).bind ofLines

end Toml
end TunnelBoard
