import TunnelBoard.Text.Basic
/-
  Terminal text with escape sequences in it.

  A screen row is a list of characters, some of which the terminal acts on instead of showing.
  Three kinds of sequence start at the escape character:

    * a control sequence `ESC [ ...`, up to the first character in `@` to `~`;
    * an operating-system command `ESC ] ...`, up to a bell, or up to a second escape character
      and whatever single character follows that one;
    * `ESC x` for any other `x`, which is just those two characters.

  A sequence that the text breaks off in simply runs to the end of the text.  `Scan` is the place
  of a left-to-right reader, `strip` keeps what is shown, and `visibleWidth` counts it.
-/

namespace TunnelBoard

/-- The character every escape sequence starts with. -/
def esc : Char := '\x1b'

/-- The character that rings the terminal's bell, and ends an operating-system command. -/
def bell : Char := '\x07'

/-- A character that ends a control sequence. -/
def isFinal (c : Char) : Bool := '\x40' ≤ c && c ≤ '\x7e'

/-! ## The reader -/

/-- Where a left-to-right reader of terminal text stands. -/
inductive Scan where
  /-- Between sequences: characters are shown. -/
  | plain
  /-- Just after an escape character. -/
  | escape
  /-- Inside `ESC [ ...`. -/
  | control
  /-- Inside `ESC ] ...`. -/
  | command
  /-- Just after an escape character inside `ESC ] ...`. -/
  | commandEscape
  deriving DecidableEq, Repr

namespace Scan

/-- The place after one more character. -/
def next : Scan → Char → Scan
  | plain, c => if c = esc then escape else plain
  | escape, c => if c = '[' then control else if c = ']' then command else plain
  | control, c => if isFinal c then plain else control
  | command, c => if c = bell then plain else if c = esc then commandEscape else command
  | commandEscape, _ => plain

/-- Whether the character read from this place is shown. -/
def shows : Scan → Char → Bool
  | plain, c => c ≠ esc
  | _, _ => false

/-- The place after a whole text. -/
def after : Scan → Text → Scan := List.foldl next

/-- The characters shown when reading starts at a given place. -/
def shown : Scan → Text → Text
  | _, [] => []
  | q, c :: s => if q.shows c then c :: shown (q.next c) s else shown (q.next c) s

/-- The characters the terminal acts on, in order. -/
def hidden : Scan → Text → Text
  | _, [] => []
  | q, c :: s => if q.shows c then hidden (q.next c) s else c :: hidden (q.next c) s

end Scan

/-! ## Measuring and stripping -/

/-- Whether the text holds any escape character. -/
def hasEscape (s : Text) : Bool := s.contains esc

/-- The text with every escape sequence removed. -/
def strip (s : Text) : Text := Scan.plain.shown s

/-- The number of columns the text takes. -/
def visibleWidth (s : Text) : Nat := (strip s).length

/-- A text that leaves the reader between sequences, so nothing after it is swallowed. -/
def Complete (s : Text) : Prop := Scan.plain.after s = .plain

instance (s : Text) : Decidable (Complete s) := inferInstanceAs (Decidable (_ = _))

/-! ## First facts -/

@[simp] theorem Scan.shown_nil (q : Scan) : q.shown [] = [] := by cases q <;> rfl

@[simp] theorem Scan.hidden_nil (q : Scan) : q.hidden [] = [] := by cases q <;> rfl

@[simp] theorem Scan.after_nil (q : Scan) : q.after [] = q := rfl

@[simp] theorem Scan.after_cons (q : Scan) (c : Char) (s : Text) :
    q.after (c :: s) = (q.next c).after s := rfl

theorem Scan.after_append (q : Scan) (s t : Text) :
    q.after (s ++ t) = (q.after s).after t := by
  simp [Scan.after, List.foldl_append]

/-- Reading `s ++ t` shows what `s` shows, then what `t` shows from where `s` ended. -/
theorem Scan.shown_append (q : Scan) (s t : Text) :
    q.shown (s ++ t) = q.shown s ++ (q.after s).shown t := by
  induction s generalizing q with
  | nil => simp
  | cons c s ih =>
    simp only [List.cons_append, Scan.shown, Scan.after_cons, ih]
    split <;> simp

/-- Text after a complete text is measured on its own. -/
theorem strip_append {s : Text} (h : Complete s) (t : Text) :
    strip (s ++ t) = strip s ++ strip t := by
  simp [strip, Scan.shown_append, show Scan.plain.after s = .plain from h]

/-- Shown and hidden characters together are all of them. -/
theorem Scan.length_shown_add_length_hidden (q : Scan) (s : Text) :
    (q.shown s).length + (q.hidden s).length = s.length := by
  induction s generalizing q with
  | nil => simp
  | cons c s ih =>
    have := ih (q.next c)
    by_cases h : q.shows c <;> simp [Scan.shown, Scan.hidden, h] <;> omega

end TunnelBoard
