import TunnelBoard.Toml.Moment
import TunnelBoard.Toml.Number
import TunnelBoard.Toml.Quotation
import TunnelBoard.Toml.Value
/-
  The lines of a TOML document.

  A document is a list of entries `key = value` and headers `[key]` and `[[key]]`, one on a line,
  between blank lines and comments.  A key is made of parts with points between them.  Values may
  nest in one another, and only arrays may go over several lines.  What the lines mean together is
  not settled here.

  Every reader takes text and gives what it read with the rest of the text.  A line feed is the only
  line break, so carriage returns in front of line feeds are dropped before anything is read, and
  any other carriage return is refused like all control characters.
-/

namespace TunnelBoard
namespace Toml

/-- How many arrays and inline tables may stand inside one another, and how many parts a key may
    have. -/
def deepest : Nat := 79

/-! ## Blanks -/

/-- Drop the carriage return in front of every line feed. -/
def unifyBreaks : Text → Text
  | '\r' :: '\n' :: s => '\n' :: unifyBreaks s
  | c :: s => c :: unifyBreaks s
  | [] => []

/-- Drop spaces and tabs. -/
def skipSpace (s : Text) : Text := s.dropWhile fun c => c = ' ' || c = '\t'

/-- Drop a comment, up to the end of its line. -/
def skipComment : Text → Text
  | '#' :: s => s.dropWhile isPrintable
  | s => s

/-- Drop what may stand at the end of a line, and the line feed if the text goes on. -/
def endOfLine (s : Text) : Option Text :=
  match skipComment (skipSpace s) with
  | [] => some []
  | '\n' :: s => some s
  | _ => none

/-- Drop spaces, line feeds and comments.  `comment` tells whether reading starts in a comment. -/
def skipFiller (comment : Bool) : Text → Text
  | [] => []
  | c :: s =>
    if c = '\n' then skipFiller false s
    else if comment && isPrintable c then skipFiller true s
    else if c = ' ' || c = '\t' then skipFiller false s
    else if c = '#' then skipFiller true s
    else c :: s

/-! ## Keys -/

/-- A character of a key without quotes. -/
def isKeyChar (c : Char) : Bool := c.isAlphanum || c = '_' || c = '-'

/-- One part of a key. -/
def keyPart : Text → Option (Text × Text)
  | '"' :: s => Quotation.readShort ('"' :: s)
  | '\'' :: s => Quotation.readShort ('\'' :: s)
  | s =>
    if (s.takeWhile isKeyChar).isEmpty then none
    else some (s.takeWhile isKeyChar, s.dropWhile isKeyChar)

/-- The parts of a key, up to `limit` of them, and the spaces around them. -/
def keyParts : Nat → Text → Option (List Text × Text)
  | 0, _ => none
  | limit + 1, s =>
    match keyPart (skipSpace s) with
    | none => none
    | some (part, s) =>
      match skipSpace s with
      | '.' :: s => (keyParts limit s).map fun r => (part :: r.1, r.2)
      | s => some ([part], s)

def key : Text → Option (List Text × Text) := keyParts deepest

/-! ## Values -/

/-- A character of a number, a date, or a name of a value. -/
def isWordChar (c : Char) : Bool :=
  c.isAlphanum || c = '+' || c = '-' || c = '_' || c = '.' || c = ':'

/-- The value that a word stands for. -/
def ofWord? (t : Text) : Option Toml :=
  if t = "true".toList then some (.boolean true)
  else if t = "false".toList then some (.boolean false)
  else
    match integer? t with
    | some n => some (.integer n)
    | none => if isFloat t then some (.float t) else if isMoment t then some (.moment t) else none

/-- A date with the time after it, if there is one. -/
def withTime (date s : Text) : Toml × Text :=
  match s with
  | ' ' :: s' =>
    let time := s'.takeWhile isWordChar
    if isTimeWithOffset time then (.moment (date ++ ' ' :: time), s'.dropWhile isWordChar)
    else (.moment date, s)
  | _ => (.moment date, s)

/-- A value with no others inside it. -/
def scalar (s : Text) : Option (Toml × Text) :=
  match s with
  | [] => none
  | c :: _ =>
    if c = '"' || c = '\'' then (Quotation.read s).map fun r => (.string r.1, r.2)
    else
      let word := s.takeWhile isWordChar
      let rest := s.dropWhile isWordChar
      if isDate word then some (withTime word rest) else (ofWord? word).map (·, rest)

/-- The items of an array after its opening bracket, each read by `read`.  The first number bounds
    how many there are. -/
def items (read : Text → Option (Toml × Text)) : Nat → Text → Option (List Toml × Text)
  | 0, _ => none
  | n + 1, s =>
    match skipFiller false s with
    | ']' :: s => some ([], s)
    | s =>
      match read s with
      | none => none
      | some (v, s) =>
        match skipFiller false s with
        | ',' :: s => (items read n s).map fun r => (v :: r.1, r.2)
        | ']' :: s => some ([v], s)
        | _ => none

/-- An entry of a table: the key and the value behind it. -/
structure Entry where
  path : List Text
  value : Toml

/-- An entry, whose value is read by `read`. -/
def entry (read : Text → Option (Toml × Text)) (s : Text) : Option (Entry × Text) :=
  match key s with
  | some (path, '=' :: s) => (read (skipSpace s)).map fun r => (⟨path, r.1⟩, r.2)
  | _ => none

/-- The entries of an inline table after its opening brace, of which there is at least one.  The
    first number bounds how many there are. -/
def entries (read : Text → Option (Toml × Text)) : Nat → Text → Option (List Entry × Text)
  | 0, _ => none
  | n + 1, s =>
    match entry read s with
    | none => none
    | some (e, s) =>
      match skipSpace s with
      | ',' :: s => (entries read n s).map fun r => (e :: r.1, r.2)
      | '\x7d' :: s => some ([e], s)
      | _ => none

/-! ## Lines -/

/-- What a line says. -/
inductive Line where
  | entry (e : Entry)
  /-- `[path]` -/
  | table (path : List Text)
  /-- `[[path]]` -/
  | element (path : List Text)

/-- A line without blanks and comments around it, whose value is read by `read`. -/
def line (read : Text → Option (Toml × Text)) : Text → Option (Line × Text)
  | '[' :: '[' :: s =>
    match key s with
    | some (path, ']' :: ']' :: s) => some (.element path, s)
    | _ => none
  | '[' :: s =>
    match key s with
    | some (path, ']' :: s) => some (.table path, s)
    | _ => none
  | s => (entry read s).map fun r => (.entry r.1, r.2)

/-- All lines that say something.  The number bounds how many lines there are. -/
def lines (read : Text → Option (Toml × Text)) : Nat → Text → Option (List Line)
  | 0, _ => none
  | n + 1, s =>
    match skipSpace s with
    | [] => some []
    | '\n' :: s => lines read n s
    | '#' :: s => (endOfLine ('#' :: s)).bind (lines read n)
    | s =>
      match line read s with
      | none => none
      | some (l, s) => (endOfLine s).bind fun s => (lines read n s).map (l :: ·)

end Toml
end TunnelBoard
