import TunnelBoard.Proofs.Text.Plain
/-
  The grammar of escape sequences.

  Terminal text is made of pieces, each of them a shown character or a complete sequence, and may break
  off in the middle of one more sequence.  `Piece` and `Rest` list the two with all that makes them what
  they are, and a `Parse` is some pieces and a rest, so there are no parses but those of the grammar.

  The reader of `Text.Escape` knows nothing of pieces.  `Parse.push` takes in one character and finds
  the pieces; it gives up nothing (`text_ofText`), and it gives back every parse whose text it is given
  (`ofText_text`).  So a text has exactly one parse, and the reader shows what is shown of its pieces
  (`read_text`): `scan_matches_grammar` is the two put together.
-/

namespace TunnelBoard

/-! ## The grammar

A text is pieces, each a shown character or a complete sequence, and behind them perhaps a sequence
that is not complete. -/

/-- What ends an operating-system command. -/
inductive CommandEnd where
  | bell
  /-- A second escape character, and the one character behind it. -/
  | escaped (c : Char)
  deriving DecidableEq

/-- A shown character, or a complete sequence. -/
inductive Piece where
  | shown (c : Char) (plain : c ≠ esc)
  /-- `ESC [`, up to the first final character. -/
  | control (params : Text) (final : Char) (inside : ∀ c ∈ params, isFinal c = false)
      (ends : isFinal final = true)
  /-- `ESC ]`, up to the first bell or escape character. -/
  | command (body : Text) (ending : CommandEnd) (inside : ∀ c ∈ body, c ≠ bell ∧ c ≠ esc)
  /-- `ESC` and one other character. -/
  | pair (c : Char) (other : c ≠ '[' ∧ c ≠ ']')

/-- What a text breaks off with: nothing, or a sequence that is not complete. -/
inductive Rest where
  | nothing
  | escape
  | control (params : Text) (inside : ∀ c ∈ params, isFinal c = false)
  | command (body : Text) (inside : ∀ c ∈ body, c ≠ bell ∧ c ≠ esc)
  /-- Only the character behind the second escape character is missing. -/
  | commandEscape (body : Text) (inside : ∀ c ∈ body, c ≠ bell ∧ c ≠ esc)

/-- Pieces, and what is left when no more of them are complete. -/
structure Parse where
  pieces : List Piece
  rest : Rest

def CommandEnd.text : CommandEnd → Text
  | bell => [TunnelBoard.bell]
  | escaped c => [esc, c]

namespace Piece

def text : Piece → Text
  | shown c _ => [c]
  | control params final _ _ => esc :: '[' :: params ++ [final]
  | command body ending _ => esc :: ']' :: body ++ ending.text
  | pair c _ => [esc, c]

/-- What is shown of a piece. -/
def visible : Piece → Text
  | shown c _ => [c]
  | _ => []

end Piece

namespace Rest

def text : Rest → Text
  | nothing => []
  | escape => [esc]
  | control params _ => esc :: '[' :: params
  | command body _ => esc :: ']' :: body
  | commandEscape body _ => esc :: ']' :: body ++ [esc]

/-- Where a reader stands behind it. -/
def scan : Rest → Scan
  | nothing => .plain
  | escape => .escape
  | control _ _ => .control
  | command _ _ => .command
  | commandEscape _ _ => .commandEscape

theorem control_congr {params params' : Text} {h h'} (hp : params = params') :
    control params h = control params' h' := by
  subst hp
  rfl

theorem command_congr {body body' : Text} {h h'} (hb : body = body') :
    command body h = command body' h' := by
  subst hb
  rfl

end Rest

/-- What holds of all characters, and of one more. -/
theorem forall_mem_snoc {P : Char → Prop} {s : Text} {c : Char} (h : ∀ d ∈ s, P d) (hc : P c) :
    ∀ d ∈ s ++ [c], P d := by
  intro d hd
  rcases List.mem_append.1 hd with hd | hd
  · exact h d hd
  · exact List.mem_singleton.1 hd ▸ hc

namespace Parse

def text (r : Parse) : Text := r.pieces.flatMap Piece.text ++ r.rest.text

/-- The shown characters of a parse. -/
def visible (r : Parse) : Text := r.pieces.flatMap Piece.visible

/-! ## Finding the pieces -/

/-- Take in one more character. -/
def push (r : Parse) (c : Char) : Parse :=
  match r.rest with
  | .nothing =>
    if h : c = esc then ⟨r.pieces, .escape⟩ else ⟨r.pieces ++ [.shown c h], .nothing⟩
  | .escape =>
    if h : c = '[' then ⟨r.pieces, .control [] nofun⟩
    else if h' : c = ']' then ⟨r.pieces, .command [] nofun⟩
    else ⟨r.pieces ++ [.pair c ⟨h, h'⟩], .nothing⟩
  | .control params inside =>
    if h : isFinal c = true then ⟨r.pieces ++ [.control params c inside h], .nothing⟩
    else ⟨r.pieces, .control (params ++ [c]) (forall_mem_snoc inside (Bool.eq_false_iff.2 h))⟩
  | .command body inside =>
    if h : c = bell then ⟨r.pieces ++ [.command body .bell inside], .nothing⟩
    else if h' : c = esc then ⟨r.pieces, .commandEscape body inside⟩
    else ⟨r.pieces, .command (body ++ [c]) (forall_mem_snoc inside ⟨h, h'⟩)⟩
  | .commandEscape body inside => ⟨r.pieces ++ [.command body (.escaped c) inside], .nothing⟩

/-- The parse of a text. -/
def ofText (s : Text) : Parse := s.foldl push ⟨[], .nothing⟩

/-- A character is added to the text, whatever becomes of it. -/
theorem text_push (r : Parse) (c : Char) : (r.push c).text = r.text ++ [c] := by
  obtain ⟨pieces, rest⟩ := r
  -- by what the text so far has broken off in
  cases rest with
  | nothing =>
    unfold push
    dsimp only
    split
    · rename_i h
      simp [text, Rest.text, h]
    · simp [text, Rest.text, Piece.text]
  | escape =>
    unfold push
    dsimp only
    split
    · rename_i h
      simp [text, Rest.text, h]
    · split
      · rename_i h
        simp [text, Rest.text, h]
      · simp [text, Rest.text, Piece.text]
  | control params inside =>
    unfold push
    dsimp only
    split
    · simp [text, Rest.text, Piece.text]
    · simp [text, Rest.text]
  | command body inside =>
    unfold push
    dsimp only
    split
    · rename_i h
      simp [text, Rest.text, Piece.text, CommandEnd.text, h]
    · split
      · rename_i h
        simp [text, Rest.text, h]
      · simp [text, Rest.text]
  | commandEscape body inside => simp [push, text, Rest.text, Piece.text, CommandEnd.text]

/-- **Nothing is given up**: the parse of a text has that text. -/
theorem text_ofText (s : Text) : (ofText s).text = s := by
  have hall : ∀ r : Parse, (s.foldl push r).text = r.text ++ s := by
    induction s with
    | nil => exact fun r => (List.append_nil _).symm
    | cons c s ih =>
      intro r
      rw [List.foldl_cons, ih, text_push, List.append_assoc]
      rfl
  exact hall ⟨[], .nothing⟩

/-! ## Finding them again -/

variable (pieces : List Piece)

/-- Inside a control sequence, characters are taken in up to the final one. -/
theorem foldl_push_params {front params : Text} {hfront} (h : ∀ c ∈ params, isFinal c = false) :
    params.foldl push ⟨pieces, .control front hfront⟩ =
      ⟨pieces, .control (front ++ params) fun c hc => (List.mem_append.1 hc).elim (hfront c) (h c)⟩ := by
  induction params generalizing front with
  | nil => exact congrArg (Parse.mk pieces) (Rest.control_congr (List.append_nil _).symm)
  | cons c params ih =>
    have hstep : push ⟨pieces, .control front hfront⟩ c = ⟨pieces, .control (front ++ [c])
        (forall_mem_snoc hfront (h c List.mem_cons_self))⟩ := by
      unfold push
      exact dif_neg (by rw [h c List.mem_cons_self]; decide)
    rw [List.foldl_cons, hstep, ih fun d hd => h d (List.mem_cons_of_mem _ hd)]
    exact congrArg (Parse.mk pieces) (Rest.control_congr (by simp))

/-- Inside an operating-system command, characters are taken in up to a bell or an escape character. -/
theorem foldl_push_body {front body : Text} {hfront} (h : ∀ c ∈ body, c ≠ bell ∧ c ≠ esc) :
    body.foldl push ⟨pieces, .command front hfront⟩ =
      ⟨pieces, .command (front ++ body) fun c hc => (List.mem_append.1 hc).elim (hfront c) (h c)⟩ := by
  induction body generalizing front with
  | nil => exact congrArg (Parse.mk pieces) (Rest.command_congr (List.append_nil _).symm)
  | cons c body ih =>
    obtain ⟨hbell, hesc⟩ := h c List.mem_cons_self
    have hstep : push ⟨pieces, .command front hfront⟩ c = ⟨pieces, .command (front ++ [c])
        (forall_mem_snoc hfront ⟨hbell, hesc⟩)⟩ := by
      unfold push
      dsimp only
      rw [dif_neg hbell, dif_neg hesc]
    rw [List.foldl_cons, hstep, ih fun d hd => h d (List.mem_cons_of_mem _ hd)]
    exact congrArg (Parse.mk pieces) (Rest.command_congr (by simp))

/-- The text of a rest is taken for that rest. -/
theorem foldl_push_rest (rest : Rest) : rest.text.foldl push ⟨pieces, .nothing⟩ = ⟨pieces, rest⟩ := by
  cases rest with
  | nothing | escape => rfl
  | control params inside =>
    show params.foldl push ⟨pieces, .control [] nofun⟩ = _
    exact foldl_push_params pieces inside
  | command body inside =>
    show body.foldl push ⟨pieces, .command [] nofun⟩ = _
    exact foldl_push_body pieces inside
  | commandEscape body inside =>
    show (body ++ [esc]).foldl push ⟨pieces, .command [] nofun⟩ = _
    rw [List.foldl_append, foldl_push_body pieces inside]
    rfl

/-- The text of a piece is taken for that piece. -/
theorem foldl_push_piece (p : Piece) :
    p.text.foldl push ⟨pieces, .nothing⟩ = ⟨pieces ++ [p], .nothing⟩ := by
  cases p with
  | shown c hplain => exact dif_neg hplain
  | control params final inside ends =>
    show (params ++ [final]).foldl push ⟨pieces, .control [] nofun⟩ = _
    rw [List.foldl_append, foldl_push_params pieces inside]
    exact dif_pos ends
  | command body ending inside =>
    show (body ++ ending.text).foldl push ⟨pieces, .command [] nofun⟩ = _
    rw [List.foldl_append, foldl_push_body pieces inside]
    cases ending with
    | bell | escaped => rfl
  | pair c other =>
    show push ⟨pieces, .escape⟩ c = _
    unfold push
    dsimp only
    rw [dif_neg other.1, dif_neg other.2]

/-- **No other parse has the same text**: the parse of its text is the parse itself. -/
theorem ofText_text (r : Parse) : ofText r.text = r := by
  obtain ⟨pieces, rest⟩ := r
  have hpieces : ∀ front, (pieces.flatMap Piece.text).foldl push ⟨front, .nothing⟩ =
      ⟨front ++ pieces, .nothing⟩ := by
    induction pieces with
    | nil => exact fun front => congrArg (Parse.mk · .nothing) (List.append_nil front).symm
    | cons p pieces ih =>
      intro front
      rw [List.flatMap_cons, List.foldl_append, foldl_push_piece, ih, List.append_assoc]
      rfl
  rw [ofText, text, List.foldl_append, hpieces, foldl_push_rest]
  rfl

/-! ## What the reader does on them -/

/-- The reader is between sequences behind each piece, and shows what is shown of it. -/
theorem read_piece (p : Piece) :
    Scan.plain.after p.text = .plain ∧ Scan.plain.shown p.text = p.visible := by
  cases p with
  | shown c hplain => exact Scan.read_of_isPlain (.cons hplain .nil)
  | control params final inside ends =>
    obtain ⟨hafter, hshown⟩ := Scan.read_params inside
    show Scan.control.after (params ++ [final]) = _ ∧ Scan.control.shown (params ++ [final]) = _
    rw [Scan.after_append, Scan.shown_append, hafter, hshown]
    exact ⟨if_pos ends, rfl⟩
  | command body ending inside =>
    obtain ⟨hafter, hshown⟩ := Scan.read_body inside
    show Scan.command.after (body ++ ending.text) = _ ∧ Scan.command.shown (body ++ ending.text) = _
    rw [Scan.after_append, Scan.shown_append, hafter, hshown]
    cases ending with
    | bell | escaped => exact ⟨rfl, rfl⟩
  | pair c other =>
    refine ⟨?_, rfl⟩
    show Scan.escape.next c = .plain
    rw [Scan.next, if_neg other.1, if_neg other.2]

/-- A rest leaves the reader in the middle of its sequence, and nothing of it is shown. -/
theorem read_rest (rest : Rest) :
    Scan.plain.after rest.text = rest.scan ∧ Scan.plain.shown rest.text = [] := by
  cases rest with
  | nothing | escape => exact ⟨rfl, rfl⟩
  | control params inside => exact Scan.read_params inside
  | command body inside => exact Scan.read_body inside
  | commandEscape body inside =>
    obtain ⟨hafter, hshown⟩ := Scan.read_body inside
    show Scan.command.after (body ++ [esc]) = _ ∧ Scan.command.shown (body ++ [esc]) = _
    rw [Scan.after_append, Scan.shown_append, hafter, hshown]
    exact ⟨rfl, rfl⟩

/-- **The reader follows the grammar**: behind a text it stands where the rest says, and it has shown the
    shown characters. -/
theorem read_text (r : Parse) :
    Scan.plain.after r.text = r.rest.scan ∧ strip r.text = r.visible := by
  have hpieces : Scan.plain.after (r.pieces.flatMap Piece.text) = .plain ∧
      Scan.plain.shown (r.pieces.flatMap Piece.text) = r.pieces.flatMap Piece.visible := by
    induction r.pieces with
    | nil => exact ⟨rfl, rfl⟩
    | cons p pieces ih =>
      obtain ⟨hafter, hshown⟩ := read_piece p
      rw [List.flatMap_cons, List.flatMap_cons, Scan.after_append, Scan.shown_append, hafter, hshown,
        ih.1, ih.2]
      exact ⟨rfl, rfl⟩
  obtain ⟨hafter, hshown⟩ := read_rest r.rest
  rw [strip, text, Scan.after_append, Scan.shown_append, hpieces.1, hpieces.2, hafter, hshown]
  exact ⟨rfl, List.append_nil _⟩

end Parse

/-! ## The two shorter ways to measure -/

theorem isPlain_of_hasEscape {s : Text} (h : hasEscape s = false) : IsPlain s := by
  intro he
  rw [hasEscape, List.contains_iff_mem.2 he] at h
  exact nomatch h

/-- Text of one-byte characters has as many bytes as characters. -/
theorem utf8Length_of_ascii {s : Text} (h : ∀ c ∈ s, c.toNat < 128) : utf8Length s = s.length := by
  have hall : ∀ n, s.foldl (fun n c => n + c.utf8Size) n = n + s.length := by
    induction s with
    | nil => exact fun n => rfl
    | cons c s ih =>
      intro n
      have hc : c.toNat < 128 := h c List.mem_cons_self
      have hsize : c.utf8Size = 1 := Char.utf8Size_eq_one_iff.2 (by
        show c.val.toNat ≤ 127
        exact Nat.le_of_lt_succ hc)
      rw [List.foldl_cons, ih fun d hd => h d (List.mem_cons_of_mem _ hd), hsize, List.length_cons]
      omega
  exact (hall 0).trans (Nat.zero_add _)

/-! ## The grammar and the reader -/

/-- **Escape scanning matches its grammar**.  A text has one parse and no other; what is shown of the
    text is what is shown of its pieces, and its width is the number of those characters.  No escape
    character is shown.  Where there is none in the text, all of it is shown, so the characters can be
    counted without reading it, or the bytes if each character has one.  And a text that breaks off in
    nothing can have any text behind it. -/
theorem scan_matches_grammar (s : Text) :
    ∃ r : Parse, (∀ r' : Parse, r'.text = s ↔ r' = r) ∧
      strip s = r.visible ∧ esc ∉ strip s ∧ visibleWidth s = r.visible.length ∧
      (hasEscape s = false →
        strip s = s ∧ visibleWidth s = s.length ∧
        ((∀ c ∈ s, c.toNat < 128) → visibleWidth s = utf8Length s)) ∧
      (r.rest = .nothing → ∀ t, strip (s ++ t) = strip s ++ strip t) := by
  have htext : (Parse.ofText s).text = s := Parse.text_ofText s
  -- the parse of the text is read piece by piece, and that is how the reader goes through the text
  obtain ⟨hafter, hstrip⟩ := Parse.read_text (Parse.ofText s)
  rw [htext] at hafter hstrip
  refine ⟨Parse.ofText s, fun r' => ⟨?_, ?_⟩, hstrip, isPlain_strip s, congrArg List.length hstrip,
    ?_, ?_⟩
  · intro htext'
    rw [← htext', Parse.ofText_text]
  · rintro rfl
    exact htext
  · intro hescape
    have hplain := isPlain_of_hasEscape hescape
    have hwidth := visibleWidth_of_isPlain hplain
    exact ⟨strip_of_isPlain hplain, hwidth, fun hascii => hwidth.trans (utf8Length_of_ascii hascii).symm⟩
  · intro hrest t
    rw [hrest] at hafter
    exact strip_append hafter t

/-- A command ends with the character behind its second escape character, and two escape characters make
    a pair; what stands behind them is shown. -/
theorem scan_matches_grammar_titled :
    (∃ r : Parse, r.text = "a\x1b]0;\x1b[b\x1b\x1bc".toList ∧ r.rest = .nothing ∧
      r.visible = "abc".toList ∧
      strip ("a\x1b]0;\x1b[b\x1b\x1bc".toList ++ "[d".toList) = "abc[d".toList) ∧
    visibleWidth "plain".toList = utf8Length "plain".toList := by
  let titled : Parse :=
    ⟨[.shown 'a' (by decide), .command "0;".toList (.escaped '[') (by simp [bell, esc]),
      .shown 'b' (by decide), .pair esc (by decide), .shown 'c' (by decide)], .nothing⟩
  constructor
  · obtain ⟨r, honly, hstrip, -, -, -, happend⟩ := scan_matches_grammar titled.text
    have hr : titled = r := (honly titled).1 rfl
    subst hr
    exact ⟨titled, rfl, rfl, rfl, happend rfl "[d".toList⟩
  · obtain ⟨r, -, -, -, -, hplain, -⟩ := scan_matches_grammar "plain".toList
    exact (hplain (by decide)).2.2 (by simp)

end TunnelBoard
