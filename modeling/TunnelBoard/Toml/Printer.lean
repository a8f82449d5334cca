import TunnelBoard.Toml.Value
/-
  Writing TOML.

  A text is written as a literal quotation if it holds a double quote or a backslash and nothing
  that a literal quotation cannot hold, and else as a plain one with escapes.  Either form goes over
  several lines if the text holds a line feed.  An array of two or more items has a line for each.
-/

namespace TunnelBoard
namespace Toml

/-! ## Text -/

/-- A control character, which a literal quotation cannot hold. -/
def isControl (c : Char) : Bool := (c.toNat < 0x20 && c ≠ '\t' && c ≠ '\n') || c = '\x7f'

/-- Whether three single quotes stand in a row. -/
def hasTripleQuote : Text → Bool
  | '\'' :: '\'' :: '\'' :: _ => true
  | _ :: s => hasTripleQuote s
  | [] => false

/-- Whether a text is written as a literal quotation. -/
def prefersLiteral (s : Text) : Bool :=
  (s.contains '"' || s.contains '\\') && !s.any isControl && !hasTripleQuote s
    && s.getLast? ≠ some '\''

/-- A number below 2¹⁶ in four hexadecimal digits. -/
def fourDigits (n : Nat) : Text :=
  let ds := (Nat.toDigits 16 n).map Char.toUpper
  List.replicate (4 - ds.length) '0' ++ ds

/-- A character in a plain quotation; `broken` tells whether it goes over several lines. -/
def escaped (broken : Bool) (c : Char) : Text :=
  if c = '\x08' then ['\\', 'b']
  else if c = '\t' then ['\\', 't']
  else if c = '\n' then if broken then ['\n'] else ['\\', 'n']
  else if c = '\x0c' then ['\\', 'f']
  else if c = '\r' then ['\\', 'r']
  else if c = '"' then ['\\', '"']
  else if c = '\\' then ['\\', '\\']
  else if isControl c then '\\' :: 'u' :: fourDigits c.toNat
  else [c]

/-- A text in the quotes that suit it. -/
def writeText (s : Text) : Text :=
  let broken := s.contains '\n'
  if prefersLiteral s then
    if broken then "'''\n".toList ++ s ++ "'''".toList
    else if s.contains '\'' then "'''".toList ++ s ++ "'''".toList
    else '\'' :: s ++ ['\'']
  else if broken then
    "\"\"\"\n".toList ++ s.flatMap (escaped true) ++ "\"\"\"".toList
  else '"' :: s.flatMap (escaped false) ++ ['"']

/-! ## Other values and lines -/

/-- An array of items that are written already. -/
def writeArray : List Text → Text
  | [] => ['[', ']']
  | [item] => '[' :: item ++ [']']
  | items => "[\n".toList ++ items.flatMap (fun i => "    ".toList ++ i ++ ",\n".toList) ++ [']']

/-- The line of an entry whose value is written already. -/
def writeEntry (key : String) (written : Text) : Text :=
  key.toList ++ " = ".toList ++ written ++ ['\n']

/-- The line of a header. -/
def writeHeader (key : String) : Text := '[' :: key.toList ++ "]\n".toList

end Toml
end TunnelBoard
