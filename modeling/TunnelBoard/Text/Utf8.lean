import TunnelBoard.Text.Basic
/-
  Text as bytes in UTF-8.

  `decode` reads bytes that need not be valid.  Where a character breaks off or cannot go on, the
  bytes of it that were read so far stand for one unreadable character, and the offending byte is
  looked at afresh.  `decodeLossy` shows every unreadable character as U+FFFD, `decode?` refuses
  them.
-/

namespace TunnelBoard

/-- A text as bytes. -/
def encode (s : Text) : List UInt8 := s.flatMap String.utf8EncodeChar

namespace Utf8

/-- A character of which some bytes are read: the bits so far, how many bytes are to come, and
    which values the next of them may have. -/
structure Pending where
  bits : Nat
  missing : Nat
  low : Nat
  high : Nat
  deriving DecidableEq, Repr

/-- What a byte means at the start of a character. -/
inductive Lead where
  | char (c : Char)
  | more (p : Pending)
  | bad

/-- The meaning of a byte at the start of a character.  The bounds on the byte after it keep out
    overlong forms, surrogates and values past the last character. -/
def lead (b : Nat) : Lead :=
  if b < 0x80 then .char (Char.ofNat b)
  else if b < 0xC2 then .bad
  else if b < 0xE0 then .more ⟨b - 0xC0, 1, 0x80, 0xBF⟩
  else if b < 0xF0 then
    .more ⟨b - 0xE0, 2, if b = 0xE0 then 0xA0 else 0x80, if b = 0xED then 0x9F else 0xBF⟩
  else if b < 0xF5 then
    .more ⟨b - 0xF0, 3, if b = 0xF0 then 0x90 else 0x80, if b = 0xF4 then 0x8F else 0xBF⟩
  else .bad

/-- What a byte yields at the start of a character, and what is pending after it. -/
def start (b : Nat) : List (Option Char) × Option Pending :=
  match lead b with
  | .char c => ([some c], none)
  | .more p => ([], some p)
  | .bad => ([none], none)

/-- What a byte yields, and what is pending after it. -/
def step : Option Pending → Nat → List (Option Char) × Option Pending
  | none, b => start b
  | some p, b =>
    if p.low ≤ b ∧ b ≤ p.high then
      let bits := p.bits * 64 + (b - 0x80)
      if p.missing ≤ 1 then ([some (Char.ofNat bits)], none)
      else ([], some ⟨bits, p.missing - 1, 0x80, 0xBF⟩)
    else (none :: (start b).1, (start b).2)

/-- The characters of some bytes, `none` for every unreadable one. -/
def decodeFrom : Option Pending → List UInt8 → List (Option Char)
  | none, [] => []
  | some _, [] => [none]
  | p, b :: bytes => (step p b.toNat).1 ++ decodeFrom (step p b.toNat).2 bytes

end Utf8

/-- The characters of some bytes, `none` for every unreadable one. -/
def decode (bytes : List UInt8) : List (Option Char) := Utf8.decodeFrom none bytes

/-- The text of some bytes, with U+FFFD for what cannot be read. -/
def decodeLossy (bytes : List UInt8) : Text := (decode bytes).map (·.getD '\ufffd')

/-- The text of some bytes, if all of them can be read. -/
def decode? (bytes : List UInt8) : Option Text := (decode bytes).mapM id

end TunnelBoard
