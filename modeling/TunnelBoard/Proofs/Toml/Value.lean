import Mathlib.Data.List.Forall2
import TunnelBoard.Proofs.Text.Plain
import TunnelBoard.Proofs.Toml.Quotation
import TunnelBoard.Toml.Table
/-
  Values are read back as they were written.

  A value is read up to where it ends, so that a written form stands for its value (`IsForm`) is a
  statement about any text behind it that does not go on with a word or a quotation.  A written value
  begins with none of the characters that may stand around values, and there is no carriage return in
  it, which a reader of documents would turn into a line break.  With these three parts the notion is
  closed under building: the forms of words, numbers and texts are proved one by one, and an array of
  written values is read whichever of its layouts it has (`isForm_writeArray`).  So arrays of arrays
  are read as well, up to the depth that the reader follows.

  Of numbers only what is written is followed: digits in base ten, with no sign, no underscore and no
  zero in front (`head_natText`).  The reader has many more forms, and the proof of `integer?_natText`
  is that none of them claims such a number.
-/

namespace TunnelBoard
namespace Toml

variable {depth n : Nat} {t rest w : Text} {v : Toml} {c : Char}

/-! ## Written forms -/

/-- Whether a text does not go on with what stands before it. -/
def IsApart (s : Text) : Prop := ∀ c ∈ s.head?, isWordChar c = false ∧ c ≠ '"' ∧ c ≠ '\''

/-- It is enough to look at the next character. -/
theorem isApart_cons (h : isWordChar c = false ∧ c ≠ '"' ∧ c ≠ '\'') (s : Text) : IsApart (c :: s) := by
  intro d hd
  rw [← Option.some.inj hd]
  exact h

theorem isApart_comma (s : Text) : IsApart (',' :: s) := isApart_cons (by decide) s

theorem isApart_bracket (s : Text) : IsApart (']' :: s) := isApart_cons (by decide) s

theorem isApart_break (s : Text) : IsApart ('\n' :: s) := isApart_cons (by decide) s

/-- The characters that stand around values. -/
def around : List Char := [' ', '\t', '\n', '#', ']']

/-- Whether a text is a written form of a value, with others nested in it up to a depth. -/
structure IsForm (depth : Nat) (t : Text) (v : Toml) : Prop where
  starts : ∃ c s, t = c :: s ∧ c ∉ around
  noReturn : '\r' ∉ t
  value_eq : ∀ rest, IsApart rest → value depth (t ++ rest) = some (v, rest)

/-- What opens with no bracket and no brace is read in the same way at every depth. -/
theorem value_eq_scalar {s : Text} (hopen : '[' ∉ s.head?) (hbrace : '\x7b' ∉ s.head?) (depth : Nat) :
    value depth s = scalar s := by
  cases depth with
  | zero => rfl
  | succ depth =>
    unfold value
    split
    · exact absurd rfl hopen
    · exact absurd rfl hbrace
    · rfl

/-! ## Words -/

/-- No part of what is apart belongs to a word before it. -/
theorem IsApart.takeWhile_eq_nil (h : IsApart rest) : rest.takeWhile isWordChar = [] := by
  cases rest with
  | nil => rfl
  | cons c rest => rw [List.takeWhile_cons_of_neg (Bool.eq_false_iff.1 (h c rfl).1)]

theorem IsApart.dropWhile_eq_self (h : IsApart rest) : rest.dropWhile isWordChar = rest := by
  cases rest with
  | nil => rfl
  | cons c rest => rw [List.dropWhile_cons_of_neg (Bool.eq_false_iff.1 (h c rfl).1)]

/-- Digits stand in words. -/
theorem isWordChar_of_isDigit (h : c.isDigit = true) : isWordChar c = true := by
  simp only [isWordChar, Char.isAlphanum, h, Bool.or_true, Bool.true_or]

/-- A word is a written form of what it stands for. -/
theorem isForm_word (hne : w ≠ []) (hword : w.all isWordChar = true) (hdate : isDate w = false)
    (hv : ofWord? w = some v) (depth : Nat) : IsForm depth w v where
  -- none of the characters around values can stand in a word
  starts := by
    obtain ⟨c, s, rfl⟩ := List.exists_cons_of_ne_nil hne
    refine ⟨c, s, rfl, fun hc => ?_⟩
    have hno : around.all (!isWordChar ·) = true := by decide
    have hc' := List.all_eq_true.1 hno c hc
    rw [List.all_eq_true.1 hword c List.mem_cons_self] at hc'
    exact Bool.false_ne_true hc'
  noReturn := fun hmem => absurd (List.all_eq_true.1 hword _ hmem) (by decide)
  value_eq rest hrest := by
    obtain ⟨c, s, rfl⟩ := List.exists_cons_of_ne_nil hne
    have hw := List.all_eq_true.1 hword
    have hc : isWordChar c = true := hw c List.mem_cons_self
    have hother : ∀ d, isWordChar d = false → d ∉ (c :: s ++ rest).head? := by
      intro d hd hmem
      rw [Option.some.inj hmem, hd] at hc
      exact Bool.false_ne_true hc
    -- a word is not taken for a text,
    have hquote : (c = '"' || c = '\'') = false := by
      have hone : c ≠ '"' := fun heq => hother '"' (by decide) (heq ▸ rfl)
      have htwo : c ≠ '\'' := fun heq => hother '\'' (by decide) (heq ▸ rfl)
      rw [decide_eq_false hone, decide_eq_false htwo]
      rfl
    -- it is taken up to its end,
    have htake : (c :: s ++ rest).takeWhile isWordChar = c :: s := by
      rw [List.takeWhile_append_of_pos hw, hrest.takeWhile_eq_nil, List.append_nil]
    have hdrop : (c :: s ++ rest).dropWhile isWordChar = rest := by
      rw [List.dropWhile_append_of_pos hw, hrest.dropWhile_eq_self]
    -- and it is no date
    rw [value_eq_scalar (hother '[' (by decide)) (hother '\x7b' (by decide))]
    show (if (c = '"' || c = '\'') = true then _ else _) = _
    rw [hquote, if_neg Bool.false_ne_true, htake, hdrop, hdate, if_neg Bool.false_ne_true, hv]
    rfl

/-- A truth value is written as a word. -/
theorem isForm_boolText (b : Bool) (depth : Nat) : IsForm depth (boolText b) (.boolean b) := by
  cases b with
  | true => exact isForm_word (by decide) (by decide) (by decide) rfl depth
  | false => exact isForm_word (by decide) (by decide) (by decide) rfl depth

/-! ## Numbers

A number is written in decimal digits, without a zero in front unless it is zero, and the reader takes
it for the number that its digits make as long as it is not too large. -/

theorem natText_ne_nil (n : Nat) : natText n ≠ [] := Nat.toDigits_ne_nil

/-- Nothing but digits stands in a number. -/
theorem not_mem_natText (h : c.isDigit = false) (n : Nat) : c ∉ natText n :=
  fun hmem => Bool.eq_false_iff.1 h (isDigit_of_mem_natText hmem)

/-- The digits that the reader finds in a written number. -/
def valuesOf (n : Nat) : List Nat := (natText n).map digitValue

/-- What a digit is worth. -/
theorem digitValue_of_isDigit (h : c.isDigit = true) : digitValue c = c.toNat - 48 := by
  have hbounds : '0' ≤ c ∧ c ≤ '9' := by
    obtain ⟨hlow, hhigh⟩ := digit_bounds h
    exact ⟨hlow, hhigh⟩
  rw [digitValue, if_pos hbounds]
  rfl

/-- All of a written number is digits to the reader. -/
theorem digits?_natText (n : Nat) : digits? 10 (natText n) = some (valuesOf n) := by
  have hcut : cutAt '_' (natText n) = [natText n] := cutAt_of_not_mem (not_mem_natText (by decide) n)
  have hsmall : (natText n).all (digitValue · < 10) = true := by
    refine List.all_eq_true.2 fun c hc => decide_eq_true ?_
    have hdigit := isDigit_of_mem_natText hc
    have hbounds := digit_bounds hdigit
    rw [digitValue_of_isDigit hdigit]
    omega
  have hne : (natText n).isEmpty = false := List.isEmpty_eq_false_iff.2 (natText_ne_nil n)
  unfold digits?
  rw [hcut, if_pos]
  · rw [List.flatten_cons, List.flatten_nil, List.append_nil]
    rfl
  · rw [List.all_cons, List.all_nil, hne, hsmall]
    rfl

/-- The digits of a number make the number. -/
theorem ofDigits_valuesOf (n : Nat) : ofDigits 10 (valuesOf n) = n := by
  -- the reader's sum is the library's, for which this is known
  have hsame : ∀ (s : Text) (m : Nat), (∀ c ∈ s, c.isDigit = true) →
      (s.map digitValue).foldl (fun m d => m * 10 + d) m = Nat.ofDigitChars 10 s m := by
    intro s
    induction s with
    | nil => exact fun m _ => rfl
    | cons c s ih =>
      intro m hs
      have hc := digitValue_of_isDigit (hs c List.mem_cons_self)
      rw [List.map_cons, List.foldl_cons, ih _ fun d hd => hs d (List.mem_cons_of_mem _ hd),
        Nat.ofDigitChars_cons, hc, Nat.mul_comm]
      rfl
  unfold ofDigits valuesOf
  rw [hsame _ _ fun c hc => isDigit_of_mem_natText hc]
  exact Nat.ofDigitChars_toDigits (by decide) (by decide)

/-- No number but zero is written with a zero in front. -/
theorem head_natText (hn : 0 < n) : (natText n).head? ≠ some '0' := by
  induction n using Nat.strongRecOn with
  | ind n ih =>
    rcases Nat.lt_or_ge n 10 with hsmall | hlarge
    · have hall : ∀ m < 10, 0 < m → (natText m).head? ≠ some '0' := by decide
      exact hall n hsmall hn
    · have hsplit : natText n = natText (n / 10) ++ [Nat.digitChar (n % 10)] :=
        Nat.toDigits_of_base_le (by decide) hlarge
      have hfirst := ih (n / 10) (Nat.div_lt_self hn (by decide)) (Nat.div_pos hlarge (by decide))
      obtain ⟨c, s, hcs⟩ := List.exists_cons_of_ne_nil (natText_ne_nil (n / 10))
      rw [hcs] at hfirst hsplit
      rw [hsplit]
      exact hfirst

/-- The digits are taken as a decimal number, since a zero in front is there only if it is the whole
    number. -/
theorem decimal?_natText (n : Nat) : decimal? (natText n) = some (valuesOf n) := by
  unfold decimal?
  rw [digits?_natText, Option.filter_some, if_pos]
  rw [Bool.not_eq_true', Bool.and_eq_false_iff, decide_eq_false_iff_not, decide_eq_false_iff_not]
  rcases Nat.eq_zero_or_pos n with rfl | hn
  · exact Or.inr (by decide)
  · refine Or.inl fun hzero => head_natText hn ?_
    obtain ⟨c, s, hcs⟩ := List.exists_cons_of_ne_nil (natText_ne_nil n)
    have hdigit : c.isDigit = true := isDigit_of_mem_natText (hcs ▸ List.mem_cons_self)
    rw [valuesOf, hcs, List.map_cons, List.head?_cons, digitValue_of_isDigit hdigit] at hzero
    have hbounds := digit_bounds hdigit
    have hvalue := Option.some.inj hzero
    have hc : c = '0' := Char.toNat_inj.1 (by show c.toNat = 48; omega)
    rw [hcs, hc]
    rfl

/-- A written number that is not too large is read as this number. -/
theorem integer?_natText (h : n ≤ largest) : integer? (natText n) = some (n : Int) := by
  have hlt : n < Nat.pow 2 63 := by
    have hlargest : largest + 1 = Nat.pow 2 63 := by decide
    omega
  -- the other forms begin with a sign, or with a zero and a letter
  have hother : ∀ {c : Char}, c.isDigit = false → ∀ s s', natText n ≠ s ++ c :: s' := by
    intro c hc s s' heq
    exact not_mem_natText hc n (heq ▸ List.mem_append_right s List.mem_cons_self)
  have hsign : splitSign (natText n) = (false, natText n) := by
    unfold splitSign
    split
    · rename_i heq
      exact absurd heq (hother (by decide) [] _)
    · rename_i heq
      exact absurd heq (hother (by decide) [] _)
    · rfl
  unfold integer?
  split
  · rename_i heq
    exact absurd heq (hother (by decide) ['0'] _)
  · rename_i heq
    exact absurd heq (hother (by decide) ['0'] _)
  · rename_i heq
    exact absurd heq (hother (by decide) ['0'] _)
  · rw [hsign]
    dsimp only
    rw [decimal?_natText, Option.map_some, ofDigits_valuesOf]
    dsimp only
    rw [if_neg Bool.false_ne_true, if_pos hlt]

/-- A number is a form of its value if a document can hold it. -/
theorem isForm_natText (h : n ≤ largest) (depth : Nat) : IsForm depth (natText n) (.integer n) := by
  have hword : ∀ {w : Text}, 't' ∈ w ∨ 'f' ∈ w → natText n ≠ w := by
    rintro w (hmem | hmem) rfl
    · exact not_mem_natText (by decide) n hmem
    · exact not_mem_natText (by decide) n hmem
  have hdigits : (natText n).all isWordChar = true :=
    List.all_eq_true.2 fun c hc => isWordChar_of_isDigit (isDigit_of_mem_natText hc)
  refine isForm_word (natText_ne_nil n) hdigits ?_ ?_ depth
  · -- a date has a minus sign in it
    unfold isDate dropDate?
    split
    · rename_i heq
      exact absurd (heq ▸ by simp) (not_mem_natText (c := '-') (by decide) n)
    · rfl
  · rw [ofWord?, if_neg (hword (Or.inl (by decide))), if_neg (hword (Or.inr (by decide))),
      integer?_natText h]

/-! ## Text

Texts are written in quotations, which have been shown to be read back.  Here it is added that they
can stand among other values. -/

/-- A text is written with a quote in front. -/
theorem writeText_eq_cons (s : Text) : ∃ c t, writeText s = c :: t ∧ (c = '"' ∨ c = '\'') := by
  unfold writeText
  dsimp only
  split
  · split
    · exact ⟨'\'', _, rfl, Or.inr rfl⟩
    · split
      · exact ⟨'\'', _, rfl, Or.inr rfl⟩
      · exact ⟨'\'', _, rfl, Or.inr rfl⟩
  · split
    · exact ⟨'"', _, rfl, Or.inl rfl⟩
    · exact ⟨'"', _, rfl, Or.inl rfl⟩

theorem return_not_mem_fourDigits : ∀ n < 128, '\r' ∉ fourDigits n := by decide

/-- An escaped character is written without a carriage return. -/
theorem return_not_mem_escaped (lines : Bool) (c : Char) : '\r' ∉ escaped lines c := by
  unfold escaped
  split
  · decide
  split
  · decide
  split
  · cases lines with
    | true => decide
    | false => decide
  split
  · decide
  split
  · decide
  split
  · decide
  split
  · decide
  split
  · -- the last control characters are written as four digits
    rename_i hcontrol
    intro hmem
    have hdigits := return_not_mem_fourDigits _ (Quotation.toNat_lt_of_isControl hcontrol)
    rcases List.mem_cons.1 hmem with heq | hmem
    · exact absurd heq (by decide)
    · rcases List.mem_cons.1 hmem with heq | hmem
      · exact absurd heq (by decide)
      · exact hdigits hmem
  · rename_i hreturn _ _ _
    exact fun hmem => hreturn (List.mem_singleton.1 hmem).symm

/-- A text is written without a carriage return: one that stands in the text is escaped. -/
theorem return_not_mem_writeText (s : Text) : '\r' ∉ writeText s := by
  have hplain : ∀ lines, '\r' ∉ s.flatMap (escaped lines) := by
    intro lines hmem
    obtain ⟨c, -, hc⟩ := List.mem_flatMap.1 hmem
    exact return_not_mem_escaped lines c hc
  unfold writeText
  dsimp only
  split
  · -- a text is put into a literal quotation only if it has no control character
    rename_i hliteral
    have hs : '\r' ∉ s := fun hmem => (Quotation.prefersLiteral_iff.1 hliteral).2.1 _ hmem (by decide)
    split
    · exact List.not_mem_append (List.not_mem_append (by decide) hs) (by decide)
    · split
      · exact List.not_mem_append (List.not_mem_append (by decide) hs) (by decide)
      · exact List.not_mem_append (List.not_mem_cons_of_ne_of_not_mem (by decide) hs) (by decide)
  · split
    · exact List.not_mem_append (List.not_mem_append (by decide) (hplain true)) (by decide)
    · exact List.not_mem_append (List.not_mem_cons_of_ne_of_not_mem (by decide) (hplain false)) (by decide)

/-- A written text is a form of it, whatever characters the text holds. -/
theorem isForm_writeText (s : Text) (depth : Nat) : IsForm depth (writeText s) (.string s) where
  starts := by
    obtain ⟨c, t, ht, hc⟩ := writeText_eq_cons s
    refine ⟨c, t, ht, ?_⟩
    rcases hc with rfl | rfl
    · decide
    · decide
  noReturn := return_not_mem_writeText s
  value_eq rest hrest := by
    have hread := Quotation.read_writeText s (fun h => (hrest _ h).2.1 rfl) fun h => (hrest _ h).2.2 rfl
    obtain ⟨c, t, ht, hc⟩ := writeText_eq_cons s
    -- it begins with a quotation mark, so it is not taken for anything else
    have hother : ∀ {d}, ¬ (d = '"' ∨ d = '\'') → d ∉ (writeText s ++ rest).head? := by
      intro d hd hmem
      rw [ht] at hmem
      exact hd (Option.some.inj hmem ▸ hc)
    rw [value_eq_scalar (hother (by decide)) (hother (by decide)), ht]
    show (if (c = '"' || c = '\'') = true then _ else _) = _
    rw [if_pos]
    · rw [← ht, hread]
      rfl
    · rcases hc with rfl | rfl
      · rfl
      · rfl

/-! ## Arrays

An array is written on one line if it has one item or none, and with a line for each item otherwise.
The reader skips the blanks and line breaks between the items, and each item is read by what is known
of its form. -/

/-- Blanks, line breaks and comments are skipped, and nothing else. -/
theorem skipFiller_of_not_mem (h : c ∉ around) (s : Text) : skipFiller false (c :: s) = c :: s := by
  have hne : ∀ d ∈ around, ¬ c = d := fun d hd heq => h (heq ▸ hd)
  have hblank : ¬ (c = ' ' || c = '\t') = true := by
    rw [decide_eq_false (hne ' ' (by decide)), decide_eq_false (hne '\t' (by decide))]
    exact Bool.false_ne_true
  rw [skipFiller, if_neg (hne '\n' (by decide)), if_neg (by exact Bool.false_ne_true), if_neg hblank,
    if_neg (hne '#' (by decide))]

/-- An item that something follows. -/
theorem items_of_isForm (h : IsForm depth t v) (n : Nat) (hrest : IsApart rest) {s : Text}
    (hs : skipFiller false s = t ++ rest) :
    items (value depth) (n + 1) s =
      match skipFiller false rest with
      | ',' :: s => (items (value depth) n s).map fun r => (v :: r.1, r.2)
      | ']' :: s => some ([v], s)
      | _ => none := by
  obtain ⟨c, s', rfl, hc⟩ := h.starts
  rw [items, hs]
  split
  · rename_i heq
    exact absurd ((List.cons.inj heq).1 ▸ hc) (by decide)
  · exact h.value_eq rest hrest ▸ rfl

/-- The line of an item in an array of two or more. -/
def itemLine (t : Text) : Text := "    ".toList ++ t ++ ",\n".toList

/-- So no part of a written value is skipped. -/
theorem IsForm.skipFiller_eq (h : IsForm depth t v) (rest : Text) :
    skipFiller false (t ++ rest) = t ++ rest := by
  obtain ⟨c, s, rfl, hc⟩ := h.starts
  exact skipFiller_of_not_mem hc _

/-- The items of an array that has a line for each of them. -/
theorem items_lines {ts : List Text} {vs : List Toml} (h : List.Forall₂ (IsForm depth) ts vs)
    (hn : ts.length < n) (rest : Text) :
    items (value depth) n ('\n' :: (ts.flatMap itemLine ++ ']' :: rest)) = some (vs, rest) := by
  induction h generalizing n with
  -- behind the last line stands the closing bracket, for which a comma in front does no harm
  | nil =>
    obtain ⟨n, rfl⟩ := Nat.exists_eq_succ_of_ne_zero (Nat.ne_of_gt hn)
    rfl
  -- one item, its comma, and the lines of the others
  | @cons t v ts vs ht _ ih =>
    obtain ⟨n, rfl⟩ := Nat.exists_eq_succ_of_ne_zero (Nat.ne_of_gt (Nat.zero_lt_of_lt hn))
    have hfiller : ∀ s, skipFiller false ('\n' :: (itemLine t ++ s)) = t ++ ',' :: '\n' :: s := by
      intro s
      show skipFiller false (t ++ ",\n".toList ++ s) = _
      rw [List.append_assoc, ht.skipFiller_eq]
      rfl
    rw [List.flatMap_cons, List.append_assoc, items_of_isForm ht n (isApart_comma _) (hfiller _)]
    show (items (value depth) n _).map _ = _
    rw [ih (Nat.lt_of_succ_lt_succ hn)]
    rfl

/-- There are at least as many characters as items, so the reader does not stop before the last one. -/
theorem length_le_flatMap_itemLine (ts : List Text) : ts.length ≤ (ts.flatMap itemLine).length := by
  induction ts with
  | nil => exact Nat.le_refl 0
  | cons t ts ih =>
    have hpos : 0 < (itemLine t).length := Nat.zero_lt_succ _
    rw [List.flatMap_cons, List.length_append, List.length_cons]
    omega

/-- An array is written in one of three layouts, each of which is read. -/
theorem value_writeArray {ts : List Text} {vs : List Toml} (h : List.Forall₂ (IsForm depth) ts vs)
    (rest : Text) : value (depth + 1) (writeArray ts ++ rest) = some (.array vs, rest) := by
  have hvalue : ∀ {s}, items (value depth) (s.length + 1) s = some (vs, rest) →
      value (depth + 1) ('[' :: s) = some (.array vs, rest) := by
    intro s hitems
    show (items (value depth) _ s).map _ = _
    rw [hitems]
    rfl
  -- none, one in the brackets, or a line for each
  match ts, vs, h with
  | [], [], .nil => rfl
  | [t], [v], .cons ht .nil =>
    have happend : writeArray [t] ++ rest = '[' :: (t ++ ']' :: rest) := by
      show '[' :: (t ++ [']'] ++ rest) = _
      rw [List.append_assoc]
      rfl
    rw [happend]
    exact hvalue (items_of_isForm ht _ (isApart_bracket rest) (ht.skipFiller_eq _))
  | t :: t' :: ts, vs, hall =>
    have happend : writeArray (t :: t' :: ts) ++ rest =
        '[' :: '\n' :: ((t :: t' :: ts).flatMap itemLine ++ ']' :: rest) := by
      show '[' :: '\n' :: ((t :: t' :: ts).flatMap itemLine ++ [']'] ++ rest) = _
      rw [List.append_assoc]
      rfl
    have hlength := length_le_flatMap_itemLine (t :: t' :: ts)
    rw [happend]
    refine hvalue (items_lines hall ?_ rest)
    simp only [List.length_cons, List.length_append] at hlength ⊢
    omega

/-- An array of written values is written without a carriage return. -/
theorem return_not_mem_writeArray {ts : List Text} (h : ∀ t ∈ ts, '\r' ∉ t) : '\r' ∉ writeArray ts := by
  have hlines : '\r' ∉ ts.flatMap itemLine := by
    intro hmem
    obtain ⟨t, ht, hmem⟩ := List.mem_flatMap.1 hmem
    exact List.not_mem_append (List.not_mem_append (by decide) (h t ht)) (by decide) hmem
  match ts with
  | [] => decide
  | [t] =>
    have ht := h t List.mem_cons_self
    exact List.not_mem_append (List.not_mem_cons_of_ne_of_not_mem (by decide) ht) (by decide)
  | _ :: _ :: _ => exact List.not_mem_append (List.not_mem_append (by decide) hlines) (by decide)

/-- A written array is a form, one level above its items. -/
theorem isForm_writeArray {ts : List Text} {vs : List Toml} (h : List.Forall₂ (IsForm depth) ts vs) :
    IsForm (depth + 1) (writeArray ts) (.array vs) where
  starts := by
    match ts with
    | [] => exact ⟨'[', _, rfl, by decide⟩
    | [_] => exact ⟨'[', _, rfl, by decide⟩
    | _ :: _ :: _ => exact ⟨'[', _, rfl, by decide⟩
  noReturn := by
    have hboth := h.imp fun _ _ hv => And.intro hv.noReturn hv
    exact return_not_mem_writeArray ((List.forall₂_and_left ts vs).1 hboth).1
  value_eq rest _ := value_writeArray h rest

/-! ## Taking data out -/

/-- A number that is not beyond the bound is taken out as it was put in. -/
theorem nat?_integer {bound : Nat} (h : n ≤ bound) : nat? bound (integer n) = some n := by
  have hrange : (0 : Int) ≤ n ∧ (n : Int) ≤ bound := ⟨Int.natCast_nonneg n, Int.ofNat_le.2 h⟩
  show (if (0 : Int) ≤ n ∧ (n : Int) ≤ bound then some (Int.toNat n) else none) = _
  rw [if_pos hrange, Int.toNat_natCast]

/-- A list is taken out if each of its items is. -/
theorem list?_map {α : Type} {take : Toml → Option α} {give : α → Toml}
    (h : ∀ a, take (give a) = some a) (as : List α) : list? take (array (as.map give)) = some as := by
  show (as.map give).mapM take = _
  induction as with
  | nil => rfl
  | cons a as ih =>
    rw [List.map_cons, List.mapM_cons, h, ih]
    rfl

end Toml
end TunnelBoard
