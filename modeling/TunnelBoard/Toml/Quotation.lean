import TunnelBoard.Text.Basic
/-
  Text in quotes, as TOML writes it.

  There are four forms.  A quotation is plain or literal: in a plain one, in double quotes, a
  backslash starts an escape, and in a literal one, in single quotes, every character stands for
  itself.  And it is on one line or over several: over several lines it is in three quotes at
  either end, may hold line feeds and up to two quotes in a row, and may end in two quotes more than
  close it.

  One reader serves all four.  It goes from character to character; `Place` is where it stands.
-/

namespace TunnelBoard
namespace Toml

/-- A character that may stand in a document as it is: no control character but the tab. -/
def isPrintable (c : Char) : Bool := c = '\t' || (0x20 ≤ c.toNat && c ≠ '\x7f')

/-- The form of a quotation. -/
structure Quotation where
  literal : Bool
  lines : Bool
  deriving DecidableEq, Repr

namespace Quotation

def mark (q : Quotation) : Char := if q.literal then '\'' else '"'

/-! ## Escapes -/

/-- What follows a backslash. -/
inductive Escape where
  | char (c : Char)
  /-- A code point in this many hexadecimal digits. -/
  | code (digits : Nat)

def escape? (c : Char) : Option Escape :=
  if c = 'b' then some (.char '\x08')
  else if c = 't' then some (.char '\t')
  else if c = 'n' then some (.char '\n')
  else if c = 'f' then some (.char '\x0c')
  else if c = 'r' then some (.char '\r')
  else if c = '"' then some (.char '"')
  else if c = '\\' then some (.char '\\')
  else if c = 'u' then some (.code 4)
  else if c = 'U' then some (.code 8)
  else none

/-- The value of a hexadecimal digit. -/
def hexValue? (c : Char) : Option Nat :=
  if '0' ≤ c ∧ c ≤ '9' then some (c.toNat - '0'.toNat)
  else if 'a' ≤ c ∧ c ≤ 'f' then some (c.toNat - 'a'.toNat + 10)
  else if 'A' ≤ c ∧ c ≤ 'F' then some (c.toNat - 'A'.toNat + 10)
  else none

/-- The character with a code point, if there is one. -/
def charOf? (code : Nat) : Option Char := if code.isValidChar then some (Char.ofNat code) else none

/-! ## The reader -/

/-- Where the reader of a quotation stands. -/
inductive Place where
  | inside
  /-- Just after a backslash. -/
  | escape
  /-- Inside the digits of a code point. -/
  | code (missing value : Nat)
  /-- In the blanks after a backslash at the end of a line, before and after the line feed. -/
  | gap (crossed : Bool)
  /-- After this many quotes in a row. -/
  | marks (count : Nat)
  deriving DecidableEq, Repr

/-- What one character does to the reader. -/
inductive Move where
  /-- Add to the text and go on. -/
  | go (text : Text) (next : Place)
  /-- The text is complete with this at its end; `taken` tells whether the character is part of the
      quotation. -/
  | stop (text : Text) (taken : Bool)
  | fail

/-- The move with more text in front. -/
def Move.after (front : Text) : Move → Move
  | go text next => go (front ++ text) next
  | stop text taken => stop (front ++ text) taken
  | fail => fail

/-- A character between escapes. -/
def inside (q : Quotation) (c : Char) : Move :=
  if c = q.mark then if q.lines then .go [] (.marks 1) else .stop [] true
  else if c = '\\' ∧ q.literal = false then .go [] .escape
  else if c = '\n' ∧ q.lines = true then .go ['\n'] .inside
  else if isPrintable c then .go [c] .inside
  else .fail

/-- Any character. -/
def move (q : Quotation) : Place → Char → Move
  | .inside, c => q.inside c
  | .escape, c =>
    match escape? c with
    | some (.char d) => .go [d] .inside
    | some (.code digits) => .go [] (.code digits 0)
    | none =>
      if q.lines && (c = ' ' || c = '\t') then .go [] (.gap false)
      else if q.lines && c = '\n' then .go [] (.gap true)
      else .fail
  | .code missing value, c =>
    match hexValue? c with
    | none => .fail
    | some d =>
      if missing ≤ 1 then
        match charOf? (value * 16 + d) with
        | some e => .go [e] .inside
        | none => .fail
      else .go [] (.code (missing - 1) (value * 16 + d))
  | .gap crossed, c =>
    if c = ' ' || c = '\t' then .go [] (.gap crossed)
    else if c = '\n' then .go [] (.gap true)
    else if crossed then q.inside c
    else .fail
  | .marks n, c =>
    if c = q.mark then
      if 4 ≤ n then .stop [q.mark, q.mark] true else .go [] (.marks (n + 1))
    else if 3 ≤ n then .stop (List.replicate (n - 3) q.mark) false
    else (q.inside c).after (List.replicate n q.mark)

/-- The text from a place up to the closing quotes, and what follows them. -/
def body (q : Quotation) : Place → Text → Option (Text × Text)
  | .marks n, [] => if 3 ≤ n then some (List.replicate (n - 3) q.mark, []) else none
  | _, [] => none
  | p, c :: s =>
    match q.move p c with
    | .go text next => (body q next s).map fun r => (text ++ r.1, r.2)
    | .stop text taken => some (text, if taken then s else c :: s)
    | .fail => none

/-- A quotation over several lines, after its three opening quotes.  A line feed straight after them
    is dropped. -/
def linesBody (literal : Bool) : Text → Option (Text × Text)
  | '\n' :: s => body ⟨literal, true⟩ .inside s
  | s => body ⟨literal, true⟩ .inside s

/-- A quotation on one line, as a key may be. -/
def readShort : Text → Option (Text × Text)
  | '"' :: s => body ⟨false, false⟩ .inside s
  | '\'' :: s => body ⟨true, false⟩ .inside s
  | _ => none

/-- A quotation in any form. -/
def read : Text → Option (Text × Text)
  | '"' :: '"' :: '"' :: s => linesBody false s
  | '\'' :: '\'' :: '\'' :: s => linesBody true s
  | s => readShort s

end Quotation
end Toml
end TunnelBoard
