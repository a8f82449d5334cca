/-
  Plain text as a list of characters, and the few operations on it that every part shares:
  cutting at a separator, joining, small letters, decimal digits.
-/

namespace TunnelBoard

/-- Text, one character at a time.  A character is a Unicode scalar value. -/
abbrev Text := List Char

/-- Cut a text at every occurrence of `sep`, which is itself dropped. -/
def cutAt (sep : Char) : Text → List Text
  | [] => [[]]
  | c :: s =>
    if c = sep then [] :: cutAt sep s
    else
      match cutAt sep s with
      | [] => [[c]]
      | piece :: rest => (c :: piece) :: rest

theorem cutAt_ne_nil (sep : Char) (s : Text) : cutAt sep s ≠ [] := by
  cases s with
  | nil => simp [cutAt]
  | cons c s =>
    unfold cutAt
    split
    · simp
    · split <;> simp

theorem cutAt_of_not_mem {sep : Char} {s : Text} (h : sep ∉ s) : cutAt sep s = [s] := by
  induction s with
  | nil => rfl
  | cons c s ih =>
    have hc : ¬ c = sep := fun heq => h (heq ▸ List.mem_cons_self)
    rw [cutAt, if_neg hc, ih fun hmem => h (List.mem_cons_of_mem _ hmem)]

/-- What stands before the first separator is a piece. -/
theorem cutAt_append {sep : Char} {s : Text} (h : sep ∉ s) (t : Text) :
    cutAt sep (s ++ sep :: t) = s :: cutAt sep t := by
  induction s with
  | nil => rw [List.nil_append, cutAt, if_pos rfl]
  | cons c s ih =>
    have hc : ¬ c = sep := fun heq => h (heq ▸ List.mem_cons_self)
    rw [List.cons_append, cutAt, if_neg hc, ih fun hmem => h (List.mem_cons_of_mem _ hmem)]

/-- Put `sep` between the pieces. -/
def joinWith (sep : Text) : List Text → Text
  | [] => []
  | [piece] => piece
  | piece :: rest => piece ++ sep ++ joinWith sep rest

theorem joinWith_cons {sep piece : Text} {rest : List Text} (h : rest ≠ []) :
    joinWith sep (piece :: rest) = piece ++ sep ++ joinWith sep rest := by
  cases rest with
  | nil => exact absurd rfl h
  | cons => rfl

/-- Whether `part` stands somewhere in a text. -/
def hasPart (part : Text) : Text → Bool
  | [] => part.isEmpty
  | c :: s => part.isPrefixOf (c :: s) || hasPart part s

/-- The letters `A` to `Z` made small; every other character as it is. -/
def lowerAscii (s : Text) : Text := s.map Char.toLower

/-- The number of bytes of the text in UTF-8. -/
def utf8Length (s : Text) : Nat := s.foldl (fun n c => n + c.utf8Size) 0

/-- A truth value as a word. -/
def boolText (b : Bool) : Text := (if b then "true" else "false").toList

/-- A number in decimal digits. -/
def natText (n : Nat) : Text := Nat.toDigits 10 n

/-- A number in decimal digits, with zeros in front up to `width` of them. -/
def natTextPadded (width n : Nat) : Text :=
  List.replicate (width - (natText n).length) '0' ++ natText n

end TunnelBoard
