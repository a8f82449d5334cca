import TunnelBoard.Proofs.Toml.Value
/-
  The lines of a document are read back as they were written.

  A written document is a list of rows, of which each is a line of its own (`Row`), and an entry holds
  one of a few kinds of data (`Datum`).  The reader takes the rows one at a time, so that what it
  finds is what the rows say (`parse?_rows`).  What they mean together is settled elsewhere.

  The keys that are written need no quotes (`IsBareKey`), and with the forms of values behind it a
  line is read in three steps: the key up to the character behind it, the value up to the line break,
  and the break itself.  Before it reads lines, a reader drops a mark at the beginning of a text and
  unifies the line breaks.  Neither changes a written document, for no row begins with such a mark,
  and none has a carriage return in it.
-/

namespace TunnelBoard
namespace Toml

variable {k rest t : Text} {v : Toml} {n : Nat}

/-! ## Keys -/

/-- Whether a key is written without quotes. -/
def IsBareKey (k : Text) : Prop := k ≠ [] ∧ k.all isKeyChar = true

instance (k : Text) : Decidable (IsBareKey k) := inferInstanceAs (Decidable (_ ∧ _))

/-- The characters that a reader looks for where a key may stand. -/
def signs : List Char := [' ', '\t', '\n', '#', '[', '"', '\'', '\ufeff']

/-- The characters of a bare key are all among those of keys. -/
theorem IsBareKey.forall_isKeyChar (h : IsBareKey k) : ∀ c ∈ k, isKeyChar c = true :=
  List.all_eq_true.1 h.2

/-- A bare key has a first character, which is none of the signs. -/
theorem IsBareKey.exists_cons (h : IsBareKey k) : ∃ c s, k = c :: s ∧ c ∉ signs := by
  obtain ⟨c, s, rfl⟩ := List.exists_cons_of_ne_nil h.1
  refine ⟨c, s, rfl, fun hc => ?_⟩
  have hno : signs.all (!isKeyChar ·) = true := by decide
  have hc' := List.all_eq_true.1 hno c hc
  rw [h.forall_isKeyChar c List.mem_cons_self] at hc'
  exact Bool.false_ne_true hc'

/-- Only blanks and tabs are skipped within a line. -/
theorem skipSpace_of_not_mem {c : Char} (h : c ∉ [' ', '\t']) (s : Text) :
    skipSpace (c :: s) = c :: s := by
  refine List.dropWhile_cons_of_neg ?_
  rw [decide_eq_false (List.ne_of_not_mem_cons h),
    decide_eq_false (List.ne_of_not_mem_cons (List.not_mem_of_not_mem_cons h))]
  exact Bool.false_ne_true

/-- Nothing is skipped in front of a key. -/
theorem IsBareKey.skipSpace_eq (h : IsBareKey k) (rest : Text) : skipSpace (k ++ rest) = k ++ rest := by
  obtain ⟨c, s, rfl, hc⟩ := h.exists_cons
  exact skipSpace_of_not_mem (fun hmem => hc (List.mem_append_left _ hmem)) _

/-- Nothing is skipped in front of a value. -/
theorem IsForm.skipSpace_eq {depth : Nat} (h : IsForm depth t v) (rest : Text) :
    skipSpace (t ++ rest) = t ++ rest := by
  obtain ⟨c, s, rfl, hc⟩ := h.starts
  exact skipSpace_of_not_mem (fun hmem => hc (List.mem_append_left _ hmem)) _

/-- A bare key is read up to the first character that cannot stand in one. -/
theorem keyPart_bare (h : IsBareKey k) (hrest : ∀ c ∈ rest.head?, isKeyChar c = false) :
    keyPart (k ++ rest) = some (k, rest) := by
  have htake : rest.takeWhile isKeyChar = [] ∧ rest.dropWhile isKeyChar = rest := by
    cases rest with
    | nil => exact ⟨rfl, rfl⟩
    | cons c rest =>
      have hc := Bool.eq_false_iff.1 (hrest c rfl)
      exact ⟨List.takeWhile_cons_of_neg hc, List.dropWhile_cons_of_neg hc⟩
  obtain ⟨c, s, hk, hc⟩ := h.exists_cons
  unfold keyPart
  split
  · -- it does not begin with either of the quotes
    rename_i heq
    rw [hk] at heq
    exact absurd ((List.cons.inj heq).1 ▸ hc) (by decide)
  · rename_i heq
    rw [hk] at heq
    exact absurd ((List.cons.inj heq).1 ▸ hc) (by decide)
  · have hne : k.isEmpty = false := List.isEmpty_eq_false_iff.2 h.1
    rw [List.takeWhile_append_of_pos h.forall_isKeyChar, List.dropWhile_append_of_pos h.forall_isKeyChar,
      htake.1, htake.2, List.append_nil, hne, if_neg Bool.false_ne_true]

/-- A key of one part. -/
theorem key_bare (h : IsBareKey k) (hrest : ∀ c ∈ rest.head?, isKeyChar c = false)
    (hdot : '.' ∉ (skipSpace rest).head?) : key (k ++ rest) = some ([k], skipSpace rest) := by
  -- no point follows, so there is no second part
  unfold key deepest keyParts
  rw [h.skipSpace_eq, keyPart_bare h hrest]
  dsimp only
  split
  · rename_i heq
    exact absurd (by rw [heq]; rfl) hdot
  · rfl

/-! ## Entries and headers

An entry is read up to the end of its line, and a header likewise, so each row can be read apart from
those behind it. -/

variable {key : String}

/-- An entry: its key, the equals sign between two blanks, its value, and the end of the line. -/
theorem writeEntry_append (key : String) (t rest : Text) :
    writeEntry key t ++ rest = key.toList ++ ' ' :: '=' :: ' ' :: (t ++ '\n' :: rest) := by
  unfold writeEntry
  rw [List.append_assoc, List.append_assoc, List.append_assoc]
  rfl

/-- A header: its key in brackets, and the end of the line. -/
theorem writeHeader_append (key : String) (rest : Text) :
    writeHeader key ++ rest = '[' :: (key.toList ++ ']' :: '\n' :: rest) := by
  show '[' :: (key.toList ++ "]\n".toList ++ rest) = _
  rw [List.append_assoc]
  rfl

/-- A header is read as one. -/
theorem line_header (h : IsBareKey key.toList) (rest : Text) :
    line (value deepest) (writeHeader key ++ rest) = some (.table [key.toList], '\n' :: rest) := by
  have hkey : Toml.key (key.toList ++ ']' :: '\n' :: rest) = some ([key.toList], ']' :: '\n' :: rest) :=
    key_bare h (by rintro _ ⟨⟩; decide) (by rintro ⟨⟩)
  obtain ⟨c, s, hk, hc⟩ := h.exists_cons
  rw [writeHeader_append]
  unfold line
  split
  · -- two brackets would open an array of tables, but the key does not begin with one
    rename_i heq
    rw [hk] at heq
    have hbracket := (List.cons.inj (List.cons.inj heq).2).1
    exact absurd (hbracket ▸ hc) (by decide)
  · rename_i heq
    obtain ⟨-, rfl⟩ := List.cons.inj heq
    rw [hkey]
    rfl
  · rename_i hone
    exact absurd rfl (hone _)

/-- An entry is its key and its value. -/
theorem entry_written (h : IsBareKey key.toList) (ht : IsForm deepest t v) (rest : Text) :
    entry (value deepest) (writeEntry key t ++ rest) = some (⟨[key.toList], v⟩, '\n' :: rest) := by
  have hkey : Toml.key (key.toList ++ ' ' :: '=' :: ' ' :: (t ++ '\n' :: rest)) =
      some ([key.toList], '=' :: ' ' :: (t ++ '\n' :: rest)) :=
    key_bare h (by rintro _ ⟨⟩; decide) (by rintro ⟨⟩)
  have hskip : skipSpace (' ' :: (t ++ '\n' :: rest)) = t ++ '\n' :: rest := ht.skipSpace_eq _
  rw [writeEntry_append, entry, hkey]
  show (value deepest (skipSpace _)).map _ = _
  rw [hskip, ht.value_eq _ (isApart_break rest)]
  rfl

/-- A line that begins with a key is an entry. -/
theorem line_entry (h : IsBareKey key.toList) (ht : IsForm deepest t v) (rest : Text) :
    line (value deepest) (writeEntry key t ++ rest) =
      some (.entry ⟨[key.toList], v⟩, '\n' :: rest) := by
  have hentry := entry_written h ht rest
  obtain ⟨c, s, hk, hc⟩ := h.exists_cons
  unfold line
  split
  · rename_i heq
    rw [writeEntry_append, hk] at heq
    exact absurd ((List.cons.inj heq).1 ▸ hc) (by decide)
  · rename_i heq
    rw [writeEntry_append, hk] at heq
    exact absurd ((List.cons.inj heq).1 ▸ hc) (by decide)
  · rw [hentry]
    rfl

/-- A line that says something, behind which the rest is read. -/
theorem lines_of_line {read : Text → Option (Toml × Text)} {s : Text} {l : Line} (hs : skipSpace s = s)
    (hhead : ∃ c s', s = c :: s' ∧ c ∉ ['\n', '#']) (hline : line read s = some (l, '\n' :: rest))
    (n : Nat) : lines read (n + 1) s = (lines read n rest).map (l :: ·) := by
  obtain ⟨c, s', rfl, hc⟩ := hhead
  rw [lines, hs]
  split
  · rename_i heq
    exact nomatch heq
  · rename_i heq
    exact absurd ((List.cons.inj heq).1 ▸ hc) (by decide)
  · rename_i heq
    exact absurd ((List.cons.inj heq).1 ▸ hc) (by decide)
  · -- what is left: the text does not end here, and the line is neither blank nor a comment
    rw [hline]
    rfl

/-- A header is one of the lines, and the rows behind it are read on their own. -/
theorem lines_header (h : IsBareKey key.toList) (n : Nat) (rest : Text) :
    lines (value deepest) (n + 1) (writeHeader key ++ rest) =
      (lines (value deepest) n rest).map (.table [key.toList] :: ·) := by
  have hskip : skipSpace (writeHeader key ++ rest) = writeHeader key ++ rest := rfl
  exact lines_of_line hskip ⟨'[', _, rfl, by decide⟩ (line_header h rest) n

/-- An entry is one of the lines, and the rows behind it are read on their own. -/
theorem lines_entry (h : IsBareKey key.toList) (ht : IsForm deepest t v) (n : Nat) (rest : Text) :
    lines (value deepest) (n + 1) (writeEntry key t ++ rest) =
      (lines (value deepest) n rest).map (.entry ⟨[key.toList], v⟩ :: ·) := by
  have hskip := h.skipSpace_eq (' ' :: '=' :: ' ' :: (t ++ '\n' :: rest))
  rw [← writeEntry_append] at hskip
  refine lines_of_line hskip ?_ (line_entry h ht rest) n
  obtain ⟨c, s, hk, hc⟩ := h.exists_cons
  rw [writeEntry_append, hk]
  exact ⟨c, _, rfl, fun hmem => hc (List.mem_append_left _ (List.mem_append_right [' ', '\t'] hmem))⟩

/-! ## Rows

A document is a list of rows, each an entry, a header or an empty line, and what the text of it says
is what its rows say. -/

/-- What an entry of a written document can hold. -/
inductive Datum where
  | text (t : Text)
  | number (n : Nat)
  | flag (b : Bool)
  | texts (ts : List Text)

namespace Datum

/-- How a datum is written. -/
def write : Datum → Text
  | text t => writeText t
  | number n => natText n
  | flag b => boolText b
  | texts ts => writeArray (ts.map writeText)

/-- The value that a datum stands for. -/
def toToml : Datum → Toml
  | text t => .string t
  | number n => .integer n
  | flag b => .boolean b
  | texts ts => .array (ts.map .string)

/-- Whether a document can hold a datum. -/
def Fits : Datum → Prop
  | number n => n ≤ largest
  | text _ | flag _ | texts _ => True

/-- A datum is written in a form of its value. -/
theorem isForm {d : Datum} (h : d.Fits) : IsForm deepest d.write d.toToml := by
  cases d with
  | text t => exact isForm_writeText t _
  | number n => exact isForm_natText h _
  | flag b => exact isForm_boolText b _
  | texts ts =>
    refine isForm_writeArray (List.forall₂_map_left_iff.2 (List.forall₂_map_right_iff.2 ?_))
    exact List.forall₂_same.2 fun t _ => isForm_writeText t _

end Datum

/-- One line of a written document. -/
inductive Row where
  | blank
  | header (key : String)
  | entry (key : String) (d : Datum)

namespace Row

/-- The line of a row. -/
def text : Row → Text
  | blank => ['\n']
  | header key => writeHeader key
  | entry key d => writeEntry key d.write

/-- What a row says. -/
def line? : Row → Option Line
  | blank => none
  | header key => some (.table [key.toList])
  | entry key d => some (.entry ⟨[key.toList], d.toToml⟩)

/-- Whether a document can have a row. -/
def Fits : Row → Prop
  | blank => True
  | header key => IsBareKey key.toList
  | entry key d => IsBareKey key.toList ∧ d.Fits

end Row

/-- The rows of a document say what they say, one after the other. -/
theorem lines_rows {rows : List Row} (h : ∀ r ∈ rows, r.Fits) (hn : rows.length < n) :
    lines (value deepest) n (rows.flatMap Row.text) = some (rows.filterMap Row.line?) := by
  induction rows generalizing n with
  -- the induction is on the rows; the reader may take one step for each of them and needs one more
  -- for the end
  | nil =>
    obtain ⟨n, rfl⟩ := Nat.exists_eq_succ_of_ne_zero (Nat.ne_of_gt hn)
    rfl
  | cons r rows ih =>
    obtain ⟨n, rfl⟩ := Nat.exists_eq_succ_of_ne_zero (Nat.ne_of_gt (Nat.zero_lt_of_lt hn))
    have hrest := ih (fun r hr => h r (List.mem_cons_of_mem _ hr)) (Nat.lt_of_succ_lt_succ hn)
    have hfits := h r List.mem_cons_self
    rw [List.flatMap_cons]
    cases r with
    | blank => exact hrest
    | header key =>
      rw [Row.text, lines_header hfits, hrest]
      rfl
    | entry key d =>
      rw [Row.text, lines_entry hfits.1 (Datum.isForm hfits.2), hrest]
      rfl

/-! ## Whole texts -/

/-- Without carriage returns the line breaks are as they should be. -/
theorem unifyBreaks_of_not_mem {s : Text} (h : '\r' ∉ s) : unifyBreaks s = s := by
  induction s with
  | nil => rfl
  | cons c s ih =>
    unfold unifyBreaks
    split
    · rename_i heq
      exact absurd (heq ▸ List.mem_cons_self) h
    · rename_i heq
      obtain ⟨rfl, rfl⟩ := List.cons.inj heq
      rw [ih fun hmem => h (List.mem_cons_of_mem _ hmem)]
    · rename_i heq
      exact nomatch heq

/-- A carriage return is not a character of keys. -/
theorem IsBareKey.return_not_mem (h : IsBareKey k) : '\r' ∉ k :=
  fun hmem => absurd (h.forall_isKeyChar _ hmem) (by decide)

/-- There is no carriage return in a row. -/
theorem Row.Fits.return_not_mem {r : Row} (h : r.Fits) : '\r' ∉ r.text := by
  cases r with
  | blank => decide
  | header key =>
    exact List.not_mem_append
      (List.not_mem_cons_of_ne_of_not_mem (by decide) (IsBareKey.return_not_mem h)) (by decide)
  | entry key d =>
    exact List.not_mem_append (List.not_mem_append (List.not_mem_append h.1.return_not_mem (by decide))
      (Datum.isForm h.2).noReturn) (by decide)

/-- A row begins with no byte order mark. -/
theorem Row.Fits.exists_cons {r : Row} (h : r.Fits) : ∃ c s, r.text = c :: s ∧ c ≠ '\ufeff' := by
  cases r with
  | blank => exact ⟨'\n', [], rfl, by decide⟩
  | header key => exact ⟨'[', _, rfl, by decide⟩
  | entry key d =>
    obtain ⟨c, s, hk, hc⟩ := h.1.exists_cons
    refine ⟨c, s ++ " = ".toList ++ d.write ++ ['\n'], ?_, fun heq => hc (heq ▸ by decide)⟩
    rw [Row.text, writeEntry, hk]
    rfl

/-- There are at least as many characters as rows, so the reader does not stop before the last one. -/
theorem length_le_flatMap_text {rows : List Row} (h : ∀ r ∈ rows, r.Fits) :
    rows.length ≤ (rows.flatMap Row.text).length := by
  induction rows with
  | nil => exact Nat.le_refl 0
  | cons r rows ih =>
    obtain ⟨c, s, hr, -⟩ := (h r List.mem_cons_self).exists_cons
    have hrest := ih fun r hr => h r (List.mem_cons_of_mem _ hr)
    rw [List.flatMap_cons, hr, List.length_append, List.length_cons, List.length_cons]
    omega

/-- **A document is read as its rows**, whatever is written in them. -/
theorem parse?_rows {rows : List Row} (h : ∀ r ∈ rows, r.Fits) :
    parse? (rows.flatMap Row.text) = ofLines (rows.filterMap Row.line?) := by
  -- there is no byte order mark in front, and no carriage return to be unified
  have hmark : dropMark (rows.flatMap Row.text) = rows.flatMap Row.text := by
    cases rows with
    | nil => rfl
    | cons r rows =>
      obtain ⟨c, s, hr, hc⟩ := (h r List.mem_cons_self).exists_cons
      rw [List.flatMap_cons, hr]
      unfold dropMark
      split
      · rename_i heq
        exact absurd (List.cons.inj heq).1 hc
      · rfl
  have hreturn : '\r' ∉ rows.flatMap Row.text := by
    intro hmem
    obtain ⟨r, hr, hmem⟩ := List.mem_flatMap.1 hmem
    exact (h r hr).return_not_mem hmem
  unfold parse?
  rw [hmark, unifyBreaks_of_not_mem hreturn]
  dsimp only
  rw [lines_rows h (Nat.lt_succ_of_le (length_le_flatMap_text h))]
  rfl

end Toml
end TunnelBoard
