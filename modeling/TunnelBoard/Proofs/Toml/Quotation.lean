import Mathlib.Tactic.ByContra
import TunnelBoard.Toml.Printer
import TunnelBoard.Toml.Quotation
/-
  Text in quotes is read back as it was written.

  The writer picks one of five forms: plain or literal, on one line or over several, and literal in
  three quotes on one line.  The reader goes from character to character and is the same for all of
  them, so what a piece of text does to it is a fact about places (`Passes`), and pieces compose.
  That a form is read back then means: what is between the quotes passes from the inside to the inside
  and adds the text, and the quotes behind it close the quotation.

  An escaped character leads from the inside to the inside, whichever of the nine ways it is written.
  In a literal quotation in three quotes a quote does not: it is held back until the next character
  shows that it closes nothing, and the crux is the induction with the quotes that are held back
  (`passes_held`), which needs that never three stand in a row and that none is the last.  That is
  what the writer asks before it takes this form (`prefersLiteral_iff`).

  What stands behind a quotation must not begin with a quote, since that one would be taken in.
  Behind every text that is written in a document stands a comma, a bracket or a line break.
-/

namespace TunnelBoard
namespace Toml

namespace Quotation

variable {q : Quotation} {p p' p'' : Place} {s t u t' u' close rest v : Text} {c : Char}

/-! ## Pieces of a quotation -/

/-- Whether a piece `t` of a quotation leads from one place to another and adds `u` to the text. -/
def Passes (q : Quotation) (p : Place) (t u : Text) (p' : Place) : Prop :=
  ∀ rest, body q p (t ++ rest) = (body q p' rest).map fun r => (u ++ r.1, r.2)

/-- The empty piece leads nowhere. -/
theorem Passes.refl : Passes q p [] [] p := by
  intro rest
  show body q p rest = (body q p rest).map id
  rw [Option.map_id, id]

/-- Pieces compose, and so do the texts that they add. -/
theorem Passes.trans (h : Passes q p t u p') (h' : Passes q p' t' u' p'') :
    Passes q p (t ++ t') (u ++ u') p'' := by
  intro rest
  rw [List.append_assoc, h, h', Option.map_map]
  congr 1
  funext r
  simp only [Function.comp_apply, List.append_assoc]

/-- A move that goes on takes one character and adds its text. -/
theorem body_cons_of_go (h : q.move p c = .go u p') (s : Text) :
    body q p (c :: s) = (body q p' s).map fun r => (u ++ r.1, r.2) := by
  rw [body, h]

/-- So a character by which the reader goes on is a piece. -/
theorem Passes.of_move (h : q.move p c = .go u p') : Passes q p [c] u p' := body_cons_of_go h

/-- A piece, and what closes the quotation behind it. -/
theorem Passes.body_eq (h : Passes q p t u p') (hclose : body q p' close = some (v, rest)) :
    body q p (t ++ close) = some (u ++ v, rest) := by
  rw [h, hclose]
  rfl

/-! ## Characters -/

/-- A character that stands for itself inside a quotation. -/
theorem inside_eq (hmark : c ≠ q.mark) (hescape : c = '\\' → q.literal = true)
    (hc : isPrintable c = true ∨ (c = '\n' ∧ q.lines = true)) : q.inside c = .go [c] .inside := by
  have hno : ¬ (c = '\\' ∧ q.literal = false) := by
    rintro ⟨hback, hplain⟩
    rw [hescape hback] at hplain
    exact nomatch hplain
  unfold inside
  rw [if_neg hmark, if_neg hno]
  split
  · rename_i hbreak
    rw [hbreak.1]
  · rename_i hbreak
    rcases hc with hc | hc
    · rw [if_pos hc]
    · exact absurd hc hbreak

/-- The writer's control characters and the reader's printable ones miss no character between them,
    line breaks apart. -/
theorem isPrintable_of_not_isControl (h : ¬ isControl c = true) (hbreak : c ≠ '\n') :
    isPrintable c = true := by
  simp only [isControl, Bool.or_eq_true, Bool.and_eq_true, decide_eq_true_eq, not_or, not_and] at h
  simp only [isPrintable, Bool.or_eq_true, Bool.and_eq_true, decide_eq_true_eq]
  by_cases htab : c = '\t'
  · exact Or.inl htab
  · refine Or.inr ⟨?_, h.2⟩
    by_contra hlow
    exact h.1 ⟨Nat.lt_of_not_le hlow, htab⟩ hbreak

/-! ## Escapes

What the writer puts for a character is either the character itself or an escape, and each of the
escapes leads the reader to the character that it stands for. -/

/-- The code point of a character gives the character back: it is never one of the surrogates. -/
theorem charOf?_toNat (c : Char) : charOf? c.toNat = some c := by
  have hvalid : c.toNat.isValidChar := c.valid
  unfold charOf?
  rw [if_pos hvalid, Char.ofNat_toNat]

/-- The four digits of a number below 128. -/
theorem map_hexValue?_fourDigits : ∀ n < 128,
    (fourDigits n).map hexValue? = [some 0, some 0, some (n / 16), some (n % 16)] := by
  decide

/-- The digits of a small number, as the reader takes them. -/
theorem exists_fourDigits {n : Nat} (h : n < 128) : ∃ w x y z, fourDigits n = [w, x, y, z] ∧
    hexValue? w = some 0 ∧ hexValue? x = some 0 ∧ hexValue? y = some (n / 16) ∧
      hexValue? z = some (n % 16) := by
  obtain ⟨w, ws, hws, hw, h⟩ := List.map_eq_cons_iff.1 (map_hexValue?_fourDigits n h)
  obtain ⟨x, xs, rfl, hx, h⟩ := List.map_eq_cons_iff.1 h
  obtain ⟨y, ys, rfl, hy, h⟩ := List.map_eq_cons_iff.1 h
  obtain ⟨z, zs, rfl, hz, h⟩ := List.map_eq_cons_iff.1 h
  obtain rfl := List.map_eq_nil_iff.1 h
  exact ⟨w, x, y, z, hws, hw, hx, hy, hz⟩

/-- A control character is small, so two of its four digits are zeros. -/
theorem toNat_lt_of_isControl (h : isControl c = true) : c.toNat < 128 := by
  simp only [isControl, Bool.or_eq_true, Bool.and_eq_true, decide_eq_true_eq] at h
  rcases h with ⟨⟨hlow, -⟩, -⟩ | rfl
  · omega
  · decide

/-- The move of one digit, of which there are more to come. -/
theorem move_digit {missing value d : Nat} (hd : hexValue? c = some d) (hmore : 1 < missing) :
    q.move (.code missing value) c = .go [] (.code (missing - 1) (value * 16 + d)) := by
  rw [move, hd]
  exact if_neg (Nat.not_le.2 hmore)

/-- The code point of a control character. -/
theorem passes_code (h : isControl c = true) :
    Passes q (.code 4 0) (fourDigits c.toNat) [c] .inside := by
  obtain ⟨w, x, y, z, hwritten, hw, hx, hy, hz⟩ := exists_fourDigits (toNat_lt_of_isControl h)
  have hsum : (((0 * 16 + 0) * 16 + 0) * 16 + c.toNat / 16) * 16 + c.toNat % 16 = c.toNat := by omega
  have hlast : q.move (.code 1 (((0 * 16 + 0) * 16 + 0) * 16 + c.toNat / 16)) z = .go [c] .inside := by
    rw [move, hz]
    dsimp only
    rw [hsum, charOf?_toNat]
    rfl
  have hfirst : q.move (.code 4 0) w = .go [] (.code 3 (0 * 16 + 0)) := move_digit hw (by decide)
  have hsecond : q.move (.code 3 (0 * 16 + 0)) x = .go [] (.code 2 ((0 * 16 + 0) * 16 + 0)) :=
    move_digit hx (by decide)
  have hthird : q.move (.code 2 ((0 * 16 + 0) * 16 + 0)) y =
      .go [] (.code 1 (((0 * 16 + 0) * 16 + 0) * 16 + c.toNat / 16)) := move_digit hy (by decide)
  -- four moves, of which the last one adds the character
  rw [hwritten]
  exact ((Passes.of_move hfirst).trans (Passes.of_move hsecond)).trans
    ((Passes.of_move hthird).trans (Passes.of_move hlast))

/-- A character as the writer puts it into a plain quotation. -/
theorem passes_escaped (lines : Bool) (c : Char) :
    Passes ⟨false, lines⟩ .inside (escaped lines c) [c] .inside := by
  have hback : ∀ {d e : Char}, move ⟨false, lines⟩ .escape d = .go [e] .inside →
      Passes ⟨false, lines⟩ .inside ['\\', d] [e] .inside := by
    intro d e hd
    have hfirst : move ⟨false, lines⟩ .inside '\\' = .go [] .escape := rfl
    exact (Passes.of_move hfirst).trans (Passes.of_move hd)
  -- the cases are those of the writer: seven characters with a name, the other control characters by
  -- their code points, and the rest as it is
  unfold escaped
  split
  · rename_i h
    rw [h]
    exact hback rfl
  split
  · rename_i h
    rw [h]
    exact hback rfl
  split
  · rename_i h
    rw [h]
    -- only on one line a line break has to be escaped
    cases lines with
    | true => exact Passes.of_move rfl
    | false => exact hback rfl
  split
  · rename_i h
    rw [h]
    exact hback rfl
  split
  · rename_i h
    rw [h]
    exact hback rfl
  split
  · rename_i h
    rw [h]
    exact hback rfl
  split
  · rename_i h
    rw [h]
    exact hback rfl
  split
  · rename_i h
    have hfirst : move ⟨false, lines⟩ .inside '\\' = .go [] .escape := rfl
    have hsecond : move ⟨false, lines⟩ .escape 'u' = .go [] (.code 4 0) := rfl
    exact ((Passes.of_move hfirst).trans (Passes.of_move hsecond)).trans (passes_code h)
  · rename_i hbreak _ _ hmark hescape hcontrol
    exact Passes.of_move (inside_eq hmark (fun heq => absurd heq hescape)
      (Or.inl (isPrintable_of_not_isControl hcontrol hbreak)))

/-- Text whose characters are all escaped passes, as the characters do. -/
theorem passes_flatMap_escaped (lines : Bool) (s : Text) :
    Passes ⟨false, lines⟩ .inside (s.flatMap (escaped lines)) s .inside := by
  induction s with
  | nil => exact .refl
  | cons c s ih => exact (passes_escaped lines c).trans ih

/-! ## Literal quotations

In three quotes, the reader holds quotes back until it knows whether they end the quotation.  A text
that has no three of them in a row, and none at its end, gets them all back. -/

/-- Text without its mark passes through a quotation on one line. -/
theorem passes_literal (hmark : '\'' ∉ s) (hs : ∀ c ∈ s, isPrintable c = true) :
    Passes ⟨true, false⟩ .inside s s .inside := by
  induction s with
  | nil => exact .refl
  | cons c s ih =>
    have hc : c ≠ '\'' := fun heq => hmark (heq ▸ List.mem_cons_self)
    have hfirst : move ⟨true, false⟩ .inside c = .go [c] .inside :=
      inside_eq hc (fun _ => rfl) (Or.inl (hs c List.mem_cons_self))
    have hrest := ih (fun hmem => hmark (List.mem_cons_of_mem _ hmem))
      fun d hd => hs d (List.mem_cons_of_mem _ hd)
    exact (Passes.of_move hfirst).trans hrest

/-- Where the reader stands after `n` quotes in a row that are held back. -/
def held (n : Nat) : Place := if n = 0 then .inside else .marks n

/-- A quote in a quotation in three quotes is held back. -/
theorem move_held_mark {n : Nat} (hn : n < 4) :
    move ⟨true, true⟩ (held n) '\'' = .go [] (held (n + 1)) := by
  cases n with
  | zero => rfl
  | succ n => exact if_neg (Nat.not_le.2 hn)

/-- Any other character frees the quotes that are held back. -/
theorem move_held_other {n : Nat} (hn : n < 3) (hc : c ≠ '\'')
    (hprintable : isPrintable c = true ∨ c = '\n') :
    move ⟨true, true⟩ (held n) c = .go (List.replicate n '\'' ++ [c]) .inside := by
  have hinside : inside ⟨true, true⟩ c = .go [c] .inside :=
    inside_eq hc (fun _ => rfl) (hprintable.imp_right fun hbreak => ⟨hbreak, rfl⟩)
  cases n with
  | zero => exact hinside
  | succ n =>
    have hmark : ¬ c = mark ⟨true, true⟩ := hc
    show (if c = mark ⟨true, true⟩ then _ else _) = _
    rw [if_neg hmark, if_neg (Nat.not_le.2 hn), hinside]
    rfl

/-- Three quotes in a row are found behind other quotes, too. -/
theorem hasTripleQuote_replicate {n : Nat} (hn : 3 ≤ n) (s : Text) :
    hasTripleQuote (List.replicate n '\'' ++ s) = true := by
  obtain ⟨m, rfl⟩ := Nat.exists_eq_add_of_le hn
  rw [Nat.add_comm, List.replicate_succ, List.replicate_succ, List.replicate_succ]
  rfl

/-- No more than two quotes are held back if three in a row are nowhere. -/
theorem lt_three {n : Nat} (h : hasTripleQuote (List.replicate n '\'' ++ s) = false) : n < 3 := by
  by_contra hge
  rw [hasTripleQuote_replicate (Nat.le_of_not_lt hge)] at h
  exact nomatch h

/-- What has no three quotes in a row has none in its tail. -/
theorem hasTripleQuote_of_append (h : hasTripleQuote (t ++ s) = false) : hasTripleQuote s = false := by
  induction t with
  | nil => exact h
  | cons c t ih =>
    refine ih ?_
    rw [List.cons_append] at h
    unfold hasTripleQuote at h
    split at h
    · exact nomatch h
    · rename_i heq
      obtain ⟨-, rfl⟩ := List.cons.inj heq
      exact h
    · rename_i heq
      exact nomatch heq

/-- The last character of a text is the one of its tail, if that is not empty. -/
theorem getLast?_ne_of_append {e : Char} (h : (t ++ c :: s).getLast? ≠ some e) : s.getLast? ≠ some e := by
  intro heq
  obtain ⟨front, rfl⟩ := List.getLast?_eq_some_iff.1 heq
  refine h (List.getLast?_eq_some_iff.2 ⟨t ++ c :: front, ?_⟩)
  rw [List.append_assoc]
  rfl

/-- Text without three quotes in a row and without a quote at its end passes through a quotation in three
    quotes, also if some quotes in front of it are held back. -/
theorem passes_held {n : Nat} (htriple : hasTripleQuote (List.replicate n '\'' ++ s) = false)
    (hlast : (List.replicate n '\'' ++ s).getLast? ≠ some '\'')
    (hs : ∀ c ∈ s, isPrintable c = true ∨ c = '\n') :
    Passes ⟨true, true⟩ (held n) s (List.replicate n '\'' ++ s) .inside := by
  have hn := lt_three htriple
  induction s generalizing n with
  -- at the end nothing may be held back, or a quote would be the last character
  | nil =>
    cases n with
    | zero => exact .refl
    | succ n =>
      rw [List.append_nil, List.replicate_succ', List.getLast?_concat] at hlast
      exact absurd rfl hlast
  | cons c s ih =>
    have hs' : ∀ d ∈ s, isPrintable d = true ∨ d = '\n' := fun d hd => hs d (List.mem_cons_of_mem _ hd)
    by_cases hc : c = '\''
    · -- one more quote is held back
      subst hc
      have hmore : List.replicate n '\'' ++ '\'' :: s = List.replicate (n + 1) '\'' ++ s := by
        rw [List.replicate_succ', List.append_assoc, List.singleton_append]
      rw [hmore] at htriple hlast ⊢
      have hrest := ih htriple hlast hs' (lt_three htriple)
      exact (Passes.of_move (move_held_mark (Nat.lt_succ_of_lt hn))).trans hrest
    · -- the quotes close nothing, and none is held back behind them
      have htail : hasTripleQuote (c :: s) = false := hasTripleQuote_of_append htriple
      have hrest : Passes ⟨true, true⟩ (held 0) s (List.replicate 0 '\'' ++ s) .inside :=
        ih (hasTripleQuote_of_append (t := [c]) htail) (getLast?_ne_of_append hlast) hs' (Nat.succ_pos 2)
      have hfirst := move_held_other hn hc (hs c List.mem_cons_self)
      have hboth := (Passes.of_move hfirst).trans hrest
      rw [List.append_assoc] at hboth
      exact hboth

/-! ## Closing quotes -/

/-- One quote closes a quotation on one line. -/
theorem body_mark (literal : Bool) (rest : Text) :
    body ⟨literal, false⟩ .inside (mark ⟨literal, false⟩ :: rest) = some ([], rest) := by
  cases literal with
  | true => rfl
  | false => rfl

/-- Three quotes close a quotation over several lines, if no fourth one comes: the reader would take
    that one in. -/
theorem body_marks (literal : Bool) {rest : Text} (h : mark ⟨literal, true⟩ ∉ rest.head?) :
    body ⟨literal, true⟩ .inside (List.replicate 3 (mark ⟨literal, true⟩) ++ rest) = some ([], rest) := by
  have hclosed : body ⟨literal, true⟩ (.marks 3) rest = some ([], rest) := by
    cases rest with
    | nil => rfl
    | cons c rest =>
      have hc : ¬ c = mark ⟨literal, true⟩ := fun heq => h (heq ▸ rfl)
      have hstop : move ⟨literal, true⟩ (.marks 3) c = .stop [] false := if_neg hc
      rw [body, hstop]
      rfl
  have hpass :
      Passes ⟨literal, true⟩ .inside (List.replicate 3 (mark ⟨literal, true⟩)) [] (.marks 3) := by
    have hfirst : move ⟨literal, true⟩ .inside (mark ⟨literal, true⟩) = .go [] (.marks 1) :=
      if_pos rfl
    have hsecond : move ⟨literal, true⟩ (.marks 1) (mark ⟨literal, true⟩) = .go [] (.marks 2) :=
      if_pos rfl
    have hthird : move ⟨literal, true⟩ (.marks 2) (mark ⟨literal, true⟩) = .go [] (.marks 3) :=
      if_pos rfl
    exact ((Passes.of_move hfirst).trans (Passes.of_move hsecond)).trans (Passes.of_move hthird)
  exact hpass.body_eq hclosed

/-! ## Quotations

There are four ways to write a quotation, and each is read back: literally or with escapes, and in one
quote or in three. -/

/-- A line break is left out only directly behind the opening quotes. -/
theorem linesBody_of_ne (literal : Bool) (h : '\n' ∉ s.head?) :
    linesBody literal s = body ⟨literal, true⟩ .inside s := by
  cases s with
  | nil => rfl
  | cons c s =>
    unfold linesBody
    split
    · rename_i heq
      exact absurd (by rw [heq]; rfl) h
    · rfl

/-- What is written of a character in a plain quotation on one line does not begin with a quote. -/
theorem head_escaped (c : Char) : ∃ d t, escaped false c = d :: t ∧ d ≠ '"' := by
  unfold escaped
  split
  · exact ⟨'\\', ['b'], rfl, by decide⟩
  split
  · exact ⟨'\\', ['t'], rfl, by decide⟩
  split
  · exact ⟨'\\', ['n'], rfl, by decide⟩
  split
  · exact ⟨'\\', ['f'], rfl, by decide⟩
  split
  · exact ⟨'\\', ['r'], rfl, by decide⟩
  split
  · exact ⟨'\\', ['"'], rfl, by decide⟩
  split
  · exact ⟨'\\', ['\\'], rfl, by decide⟩
  split
  · exact ⟨'\\', _, rfl, by decide⟩
  · -- what is not escaped is no quote, since a quote would have been
    rename_i hmark _ _
    exact ⟨c, [], rfl, hmark⟩

/-- A quotation in one quote is not taken for one in three. -/
theorem read_mark (literal : Bool)
    (hone : ∀ t, s ≠ mark ⟨literal, false⟩ :: mark ⟨literal, false⟩ :: t) :
    read (mark ⟨literal, false⟩ :: s) = body ⟨literal, false⟩ .inside s := by
  -- two quotes in a row would open a quotation in three, or be an empty one
  cases literal with
  | true =>
    unfold read
    split
    · rename_i heq
      exact absurd (List.cons.inj heq).1 (by decide)
    · rename_i heq
      exact absurd (List.cons.inj heq).2 (hone _)
    · rfl
  | false =>
    unfold read
    split
    · rename_i heq
      exact absurd (List.cons.inj heq).2 (hone _)
    · rename_i heq
      exact absurd (List.cons.inj heq).1 (by decide)
    · rfl

/-- A quotation on one line, whatever its content is written as. -/
theorem read_short {literal : Bool} (h : Passes ⟨literal, false⟩ .inside t u .inside)
    (hone : ∀ t', t ++ mark ⟨literal, false⟩ :: rest ≠
      mark ⟨literal, false⟩ :: mark ⟨literal, false⟩ :: t') :
    read (mark ⟨literal, false⟩ :: t ++ [mark ⟨literal, false⟩] ++ rest) = some (u, rest) := by
  have hbody := h.body_eq (body_mark literal rest)
  rw [List.append_nil] at hbody
  rw [List.cons_append, List.cons_append, List.append_assoc, List.singleton_append, read_mark literal hone]
  exact hbody

/-- A quotation in three quotes, after which no quote follows. -/
theorem body_closed {literal : Bool} (h : Passes ⟨literal, true⟩ .inside t u .inside)
    (hrest : mark ⟨literal, true⟩ ∉ rest.head?) :
    body ⟨literal, true⟩ .inside (t ++ List.replicate 3 (mark ⟨literal, true⟩) ++ rest) =
      some (u, rest) := by
  have hbody := h.body_eq (body_marks literal hrest)
  rw [List.append_nil, ← List.append_assoc] at hbody
  exact hbody

/-- What it takes to be written as a literal quotation. -/
theorem prefersLiteral_iff : prefersLiteral s = true ↔
    ('"' ∈ s ∨ '\\' ∈ s) ∧ (∀ c ∈ s, ¬ isControl c = true) ∧ hasTripleQuote s = false ∧
      s.getLast? ≠ some '\'' := by
  simp only [prefersLiteral, Bool.and_eq_true, Bool.or_eq_true, Bool.not_eq_true', List.contains_iff_mem,
    List.any_eq_false, decide_eq_true_eq, and_assoc]

/-- A literal quotation is read back. -/
theorem read_literal (hliteral : prefersLiteral s = true) (hsingle : '\'' ∉ rest.head?) :
    read (writeText s ++ rest) = some (s, rest) := by
  obtain ⟨hsome, hcontrol, htriple, hlast⟩ := prefersLiteral_iff.1 hliteral
  have hprintable : ∀ c ∈ s, isPrintable c = true ∨ c = '\n' := by
    intro c hc
    by_cases hbreak : c = '\n'
    · exact Or.inr hbreak
    · exact Or.inl (isPrintable_of_not_isControl (hcontrol c hc) hbreak)
  have hlines : body ⟨true, true⟩ .inside (s ++ List.replicate 3 '\'' ++ rest) = some (s, rest) :=
    body_closed (passes_held (n := 0) htriple hlast hprintable) hsingle
  unfold writeText
  rw [if_pos hliteral]
  split
  · -- over several lines
    exact hlines
  · rename_i hbreak
    have hnobreak : '\n' ∉ s := fun hmem => hbreak (List.contains_iff_mem.2 hmem)
    split
    · -- on one line and with a quote in it: in three quotes
      have hhead : '\n' ∉ (s ++ List.replicate 3 '\'' ++ rest).head? := by
        cases s with
        | nil => exact fun hmem => nomatch hmem
        | cons c s => exact fun hmem => hnobreak (Option.some.inj hmem ▸ List.mem_cons_self)
      exact (linesBody_of_ne true hhead).trans hlines
    · -- on one line and without a quote: in one
      rename_i hquote
      have hnoquote : '\'' ∉ s := fun hmem => hquote (List.contains_iff_mem.2 hmem)
      have hpasses := passes_literal hnoquote fun c hc =>
        (hprintable c hc).resolve_right fun heq => hnobreak (heq ▸ hc)
      refine read_short hpasses fun t heq => ?_
      cases s with
      | nil => exact hsome.elim List.not_mem_nil List.not_mem_nil
      | cons c s => exact hnoquote ((List.cons.inj heq).1 ▸ List.mem_cons_self)

/-- A plain quotation is read back. -/
theorem read_plain (hliteral : ¬ prefersLiteral s = true) (hdouble : '"' ∉ rest.head?) :
    read (writeText s ++ rest) = some (s, rest) := by
  unfold writeText
  rw [if_neg hliteral]
  split
  · exact body_closed (passes_flatMap_escaped true s) hdouble
  · -- an empty text on one line is two quotes, which a third one behind them would turn into an
    -- opening
    refine read_short (passes_flatMap_escaped false s) fun t heq => ?_
    cases s with
    | nil =>
      have htail := (List.cons.inj heq).2
      exact hdouble (htail ▸ rfl)
    | cons c s =>
      obtain ⟨d, u, hd, hne⟩ := head_escaped c
      rw [List.flatMap_cons, hd] at heq
      exact hne (List.cons.inj heq).1

/-- **A text is read back as it was written**, whatever characters it holds. -/
theorem read_writeText (s : Text) {rest : Text} (hdouble : '"' ∉ rest.head?)
    (hsingle : '\'' ∉ rest.head?) : read (writeText s ++ rest) = some (s, rest) := by
  by_cases hliteral : prefersLiteral s = true
  · exact read_literal hliteral hsingle
  · exact read_plain hliteral hdouble

/-- A quote and a backslash are written as they are if nothing is in the way, and else with escapes. -/
example : writeText "\"\\".toList = "'\"\\'".toList ∧ writeText "\"\r".toList = "\"\\\"\\r\"".toList := by
  decide

end Quotation
end Toml
end TunnelBoard
