import TunnelBoard.Text.Basic
import TunnelBoard.Text.Unprintable
/-
  Text in double quotes, for messages and log lines.

  A quote and a backslash get a backslash in front, the usual control characters have a letter,
  and any other character without a shape of its own is written as `\u{...}` with its code point
  in hexadecimal.  `labelled` is the form in which log lines show a value with several parts.
-/

namespace TunnelBoard

/-- How one character is written between the quotes. -/
def quotedChar (c : Char) : Text :=
  if c = '"' then ['\\', '"']
  else if c = '\\' then ['\\', '\\']
  else if c = '\n' then ['\\', 'n']
  else if c = '\t' then ['\\', 't']
  else if c = '\r' then ['\\', 'r']
  else if c = '\x00' then ['\\', '0']
  else if isUnprintable c then ['\\', 'u', '\x7b'] ++ Nat.toDigits 16 c.toNat ++ ['\x7d']
  else [c]

/-- The text in double quotes. -/
def quoted (s : Text) : Text := '"' :: s.flatMap quotedChar ++ ['"']

/-- A named group of labelled values: the name, then the values in braces. -/
def labelled (name : String) (fields : List (String × Text)) : Text :=
  name.toList ++ " \x7b ".toList
    ++ joinWith ", ".toList (fields.map fun f => f.1.toList ++ ": ".toList ++ f.2)
    ++ " \x7d".toList

end TunnelBoard
