import TunnelBoard.Proofs.Frame.Box
/-
  What becomes of a row when its base style is put back.

  `reapplyBase` looks for control sequences on its own, and disagrees with the reader of `Text.Escape`
  on what is one: it finds them behind another escape character, inside operating-system commands, and
  in the middle of what is shown.  The crux is that this does no harm (`after_sequence`): wherever the
  reader stands, behind `ESC [ ... m` it is between sequences.  For if it does not take the two
  characters at the front for the start of a control sequence, it comes out of them between sequences,
  and there the characters up to the `m` can open nothing but a pair.  So the base is put in only
  where it is not shown.

  Which sequences drop a colour is said of the parameters as a list (`DropsColour`).  A colour takes
  the parameters behind it as its arguments, and whether one of those is a colour again depends on all
  that came before, so `IsArgument` goes back to the front.  Read from the front, the arguments of the
  first parameter can be left out with it (`isArgument_succ_iff`), and this is what the program does.

  Both readings of a text go from one control sequence to the next, and so do the proofs
  (`scan_induction`).  Text that has been put together again is searched like the text before, because
  what is put in is a control sequence of its own and nothing else changes at the front of a piece
  (`controlSequence?_reapplyFrom`).
-/

namespace TunnelBoard

/-! ## Attribute parameters

The program passes over the arguments of a colour while it looks for a reset.  The definition does
not: it says of each parameter whether it is an argument, and the two are shown to agree. -/

/-- A parameter that sets the foreground, the background or everything back to what it was at first. -/
def IsReset (param : Text) : Prop :=
  param = [] ∨ param = ['0'] ∨ param = ['0', '0'] ∨ param = ['3', '9'] ∨ param = ['4', '9']

/-- A parameter that may have arguments behind it. -/
def IsColour (param : Text) : Prop := param = ['3', '8'] ∨ param = ['4', '8']

instance (param : Text) : Decidable (IsColour param) := inferInstanceAs (Decidable (_ ∨ _))

/-- The parameter at `j` is a colour, and its arguments go on as far as `i`. -/
def Reaches (params : List Text) (j i : Nat) : Prop :=
  ∃ param, params[j]? = some param ∧ IsColour param ∧ i ≤ j + colourArguments (params.drop (j + 1))

/-- Whether a parameter is an argument of an earlier one, which is not an argument itself. -/
def IsArgument (params : List Text) (i : Nat) : Prop :=
  ∃ j, ∃ _ : j < i, Reaches params j i ∧ ¬ IsArgument params j
termination_by i

/-- Whether one of the parameters is a reset, and not an argument. -/
def DropsColour (params : List Text) : Prop :=
  ∃ i param, params[i]? = some param ∧ IsReset param ∧ ¬ IsArgument params i

/-- How many parameters behind this one are its arguments, if it is none itself. -/
def argumentsOf (param : Text) (rest : List Text) : Nat :=
  if IsColour param then colourArguments rest else 0

/-- A colour takes as arguments what its kind says. -/
theorem argumentsOf_of_isColour {param : Text} (h : IsColour param) (rest : List Text) :
    argumentsOf param rest = colourArguments rest := if_pos h

/-- Any other parameter takes none. -/
theorem argumentsOf_of_not_isColour {param : Text} (h : ¬ IsColour param) (rest : List Text) :
    argumentsOf param rest = 0 := if_neg h

/-- Behind some parameters, the others are counted from there. -/
theorem reaches_drop_iff {params : List Text} {n j i : Nat} :
    Reaches (params.drop n) j i ↔ Reaches params (n + j) (n + i) := by
  have hbound : ∀ k, i ≤ j + k ↔ n + i ≤ n + j + k := fun k => by omega
  unfold Reaches
  simp only [List.getElem?_drop, List.drop_drop, ← Nat.add_assoc, hbound]

/-- The first parameter is no argument. -/
theorem not_isArgument_zero (params : List Text) : ¬ IsArgument params 0 := by
  rw [IsArgument]
  rintro ⟨j, hj, -⟩
  exact Nat.not_lt_zero j hj

section

variable {param : Text} {rest : List Text}

/-- The first parameter reaches as far as it has arguments. -/
theorem reaches_zero_iff {i : Nat} : Reaches (param :: rest) 0 (i + 1) ↔ i < argumentsOf param rest := by
  have hfirst : (param :: rest).drop 1 = rest := rfl
  unfold Reaches
  rw [Nat.zero_add, Nat.zero_add, hfirst, Nat.succ_le_iff]
  constructor
  · rintro ⟨p, hp, hcolour, hreach⟩
    cases hp
    rwa [argumentsOf_of_isColour hcolour]
  · intro hreach
    by_cases hcolour : IsColour param
    · rw [argumentsOf_of_isColour hcolour] at hreach
      exact ⟨param, rfl, hcolour, hreach⟩
    · rw [argumentsOf_of_not_isColour hcolour] at hreach
      exact absurd hreach (Nat.not_lt_zero i)

/-- A parameter in front changes nothing about how far the others reach. -/
theorem reaches_succ_iff {j i : Nat} : Reaches (param :: rest) (j + 1) (i + 1) ↔ Reaches rest j i := by
  have hdrop := @reaches_drop_iff (param :: rest) 1 j i
  rw [Nat.add_comm 1 j, Nat.add_comm 1 i] at hdrop
  exact hdrop.symm

variable (param rest)

/-- Behind the arguments of the first parameter, the others are read on their own. -/
theorem isArgument_succ_iff (i : Nat) :
    IsArgument (param :: rest) (i + 1) ↔
      i < argumentsOf param rest ∨
        argumentsOf param rest ≤ i ∧
          IsArgument (rest.drop (argumentsOf param rest)) (i - argumentsOf param rest) := by
  induction i using Nat.strongRecOn with
  | ind i ih =>
    -- by recursion on the place, since an argument is one by what stands before it
    generalize hcount : argumentsOf param rest = n at ih ⊢
    constructor
    · intro h
      rw [IsArgument] at h
      obtain ⟨j, hj, hreach, hnot⟩ := h
      cases j with
      | zero => exact Or.inl (hcount ▸ reaches_zero_iff.1 hreach)
      | succ j =>
        rw [ih j (by omega)] at hnot
        rw [reaches_succ_iff] at hreach
        rcases Nat.lt_or_ge i n with hinside | hbehind
        · exact Or.inl hinside
        · have hlate : n ≤ j := Nat.not_lt.1 fun hlt => hnot (Or.inl hlt)
          refine Or.inr ⟨hbehind, ?_⟩
          rw [IsArgument]
          refine ⟨j - n, by omega, ?_, fun harg => hnot (Or.inr ⟨hlate, harg⟩)⟩
          rwa [reaches_drop_iff, Nat.add_sub_cancel' hlate, Nat.add_sub_cancel' hbehind]
    · intro h
      rw [IsArgument]
      rcases h with hinside | ⟨hbehind, harg⟩
      · -- the first parameter itself has it as an argument
        exact ⟨0, Nat.succ_pos i, reaches_zero_iff.2 (hcount ▸ hinside), not_isArgument_zero _⟩
      · rw [IsArgument] at harg
        obtain ⟨j, hj, hreach, hnot⟩ := harg
        rw [reaches_drop_iff, Nat.add_sub_cancel' hbehind] at hreach
        refine ⟨n + j + 1, by omega, reaches_succ_iff.2 hreach, ?_⟩
        rw [ih (n + j) (by omega)]
        rintro (hlt | ⟨-, harg⟩)
        · omega
        · rw [Nat.add_sub_cancel_left] at harg
          exact hnot harg

/-- Unless the first parameter is a reset, it can be left out with its arguments. -/
theorem dropsColour_cons_iff (h : ¬ IsReset param) :
    DropsColour (param :: rest) ↔ DropsColour (rest.drop (argumentsOf param rest)) := by
  constructor
  · rintro ⟨i, p, hp, hreset, hnot⟩
    cases i with
    | zero =>
      cases hp
      exact absurd hreset h
    | succ i =>
      rw [isArgument_succ_iff] at hnot
      -- what is not an argument of the first parameter stands behind its arguments
      have hbehind : argumentsOf param rest ≤ i := Nat.not_lt.1 fun hlt => hnot (Or.inl hlt)
      refine ⟨i - argumentsOf param rest, p, ?_, hreset, fun harg => hnot (Or.inr ⟨hbehind, harg⟩)⟩
      rwa [List.getElem?_drop, Nat.add_sub_cancel' hbehind]
  · rintro ⟨i, p, hp, hreset, hnot⟩
    rw [List.getElem?_drop] at hp
    refine ⟨argumentsOf param rest + i + 1, p, hp, hreset, ?_⟩
    rw [isArgument_succ_iff]
    rintro (hlt | ⟨-, harg⟩)
    · omega
    · rw [Nat.add_sub_cancel_left] at harg
      exact hnot harg

end

/-- **Parameters drop a colour of the base** exactly if one of them says so, and is no argument. -/
theorem resetsColour_iff (params : List Text) : resetsColour params = true ↔ DropsColour params := by
  induction params using resetsColour.induct with
  | case1 =>
    rw [resetsColour]
    refine ⟨nofun, ?_⟩
    rintro ⟨i, p, hp, -⟩
    exact nomatch hp
  | case2 param rest hreset =>
    rw [resetsColour, if_pos hreset]
    exact ⟨fun _ => ⟨0, param, rfl, hreset, not_isArgument_zero _⟩, fun _ => rfl⟩
  | case3 param rest hreset hcolour ih =>
    rw [resetsColour, if_neg hreset, if_pos hcolour, dropsColour_cons_iff param rest hreset,
      argumentsOf_of_isColour hcolour]
    exact ih
  | case4 param rest hreset hcolour ih =>
    rw [resetsColour, if_neg hreset, if_neg hcolour, dropsColour_cons_iff param rest hreset,
      argumentsOf_of_not_isColour hcolour]
    exact ih

/-! ## Control sequences

A text is searched for control sequences from left to right.  This is an induction of its own
(`scan_induction`), with a case for a character that begins none and one for a whole sequence. -/

/-- A complete control sequence that stands in a text, and the text behind it. -/
structure Sequence where
  params : Text
  final : Char
  behind : Text

/-- The characters of a control sequence. -/
def controlText (params : Text) (final : Char) : Text := esc :: '[' :: params ++ [final]

/-- The control sequences that are found in a text when it is searched from left to right. -/
def sequences : Text → List Sequence
  | [] => []
  | c :: s =>
    match _h : if c = esc then controlSequence? s else none with
    | some (params, final, rest) => ⟨params, final, rest⟩ :: sequences rest
    | none => sequences s
termination_by s => s.length
decreasing_by
  · split at _h
    · have := length_lt_of_controlSequence? _h
      simp; omega
    · simp at _h
  · simp

section

variable {s params rest : Text} {c final : Char}

/-- Parameters have no final character among them. -/
theorem not_isFinal_of_mem_takeWhile (h : c ∈ s.takeWhile (!isFinal ·)) : isFinal c = false := by
  simpa using List.all_eq_true.1 List.all_takeWhile c h

/-- Behind a bracket, a control sequence goes up to the first final character. -/
theorem controlSequence?_bracket (s : Text) :
    controlSequence? ('[' :: s) =
      match s.dropWhile (!isFinal ·) with
      | [] => none
      | final :: rest => some (s.takeWhile (!isFinal ·), final, rest) := rfl

/-- A control sequence is a bracket, parameters without a final character, and one of those. -/
theorem controlSequence?_eq_some_iff :
    controlSequence? s = some (params, final, rest) ↔
      s = '[' :: params ++ final :: rest ∧ (∀ c ∈ params, isFinal c = false) ∧ isFinal final = true := by
  constructor
  · intro h
    unfold controlSequence? at h
    split at h
    · rename_i s
      split at h
      · exact nomatch h
      · rename_i f behind hdrop
        simp only [Option.some.injEq, Prod.mk.injEq] at h
        obtain ⟨rfl, rfl, rfl⟩ := h
        -- the parameters go up to the first final character, and together with the rest they are all
        -- there was
        have hwhole := List.takeWhile_append_dropWhile (p := (!isFinal ·)) (l := s)
        rw [hdrop] at hwhole
        refine ⟨by rw [List.cons_append, hwhole], fun c hc => not_isFinal_of_mem_takeWhile hc, ?_⟩
        · have hhead := List.head_dropWhile_not (!isFinal ·) (l := s) (by rw [hdrop]; exact nofun)
          simpa [hdrop] using hhead
    · exact nomatch h
  · rintro ⟨rfl, hparams, hfinal⟩
    have hinside : ∀ c ∈ params, (!isFinal c) = true := fun c hc => by
      rw [hparams c hc]
      rfl
    rw [List.cons_append, controlSequence?_bracket, List.dropWhile_append_of_pos hinside,
      List.takeWhile_append_of_pos hinside]
    simp [hfinal]

/-- A control sequence is missing, or has no end. -/
theorem controlSequence?_eq_none_iff :
    controlSequence? s = none ↔ ∀ t, s = '[' :: t → ∀ c ∈ t, isFinal c = false := by
  constructor
  · rintro h t rfl c hc
    rw [controlSequence?_bracket] at h
    split at h
    · rename_i hdrop
      have hwhole := List.takeWhile_append_dropWhile (p := (!isFinal ·)) (l := t)
      rw [hdrop, List.append_nil] at hwhole
      exact not_isFinal_of_mem_takeWhile (hwhole.symm ▸ hc)
    · exact nomatch h
  · intro h
    cases hfound : controlSequence? s with
    | none => rfl
    | some found =>
      obtain ⟨params, final, rest⟩ := found
      obtain ⟨rfl, -, hfinal⟩ := controlSequence?_eq_some_iff.1 hfound
      have hnone := h _ rfl final (List.mem_append_right _ List.mem_cons_self)
      exact absurd hfinal (by rw [hnone]; exact Bool.false_ne_true)

/-- A text is searched from one control sequence to the next. -/
@[elab_as_elim]
theorem scan_induction {P : Text → Prop} (nil : P [])
    (other : ∀ c s, (c = esc → controlSequence? s = none) → P s → P (c :: s))
    (sequence : ∀ params final rest, (∀ c ∈ params, isFinal c = false) → isFinal final = true →
      P rest → P (controlText params final ++ rest)) (s : Text) : P s := by
  induction hlength : s.length using Nat.strongRecOn generalizing s with
  | ind n ih =>
    subst hlength
    cases s with
    | nil => exact nil
    | cons c s =>
      by_cases hc : c = esc
      · subst hc
        -- the search goes on behind the escape character, or behind the sequence that it begins
        cases hfound : controlSequence? s with
        | none => exact other esc s (fun _ => hfound) (ih s.length (Nat.lt_succ_self _) s rfl)
        | some found =>
          obtain ⟨params, final, rest⟩ := found
          obtain ⟨rfl, hparams, hfinal⟩ := controlSequence?_eq_some_iff.1 hfound
          have hrest := ih rest.length (by simp; omega) rest rfl
          have htext : esc :: ('[' :: params ++ final :: rest) = controlText params final ++ rest := by
            simp [controlText]
          rw [htext]
          exact sequence params final rest hparams hfinal hrest
      · exact other c s (fun he => absurd he hc) (ih s.length (Nat.lt_succ_self _) s rfl)

/-- Where no control sequence begins, none is found. -/
theorem search_other (h : c = esc → controlSequence? s = none) :
    (if c = esc then controlSequence? s else none) = none := by
  split
  · rename_i hc
    exact h hc
  · rfl

/-- Where one begins, it is found. -/
theorem search_sequence (hparams : ∀ c ∈ params, isFinal c = false) (hfinal : isFinal final = true) :
    (if esc = esc then controlSequence? ('[' :: params ++ final :: rest) else none) =
      some (params, final, rest) := by
  rw [if_pos rfl]
  exact controlSequence?_eq_some_iff.2 ⟨rfl, hparams, hfinal⟩

/-- A character that begins no control sequence is passed over. -/
theorem sequences_other (h : c = esc → controlSequence? s = none) : sequences (c :: s) = sequences s := by
  rw [sequences]
  split
  · rename_i hsome
    exact absurd (hsome.symm.trans (search_other h)) (Option.some_ne_none _)
  · rfl

/-- A control sequence is the first one found, and the search goes on behind it. -/
theorem sequences_sequence (hparams : ∀ c ∈ params, isFinal c = false) (hfinal : isFinal final = true)
    (rest : Text) :
    sequences (controlText params final ++ rest) = ⟨params, final, rest⟩ :: sequences rest := by
  have htext : controlText params final ++ rest = esc :: ('[' :: params ++ final :: rest) := by
    simp [controlText]
  rw [htext, sequences]
  split
  · rename_i hsome
    cases (search_sequence hparams hfinal).symm.trans hsome
    rfl
  · rename_i hnone
    exact absurd ((search_sequence hparams hfinal).symm.trans hnone) (Option.some_ne_none _)

end

/-! ## Putting the base back -/

/-- Whether a control sequence drops the base, and nothing behind it puts it back. -/
def IsDropped (base params : Text) (final : Char) (rest : Text) : Prop :=
  final = 'm' ∧ controlText params final ≠ base ∧ ¬ base <+: rest ∧ resetsBase params = true

instance (base params : Text) (final : Char) (rest : Text) : Decidable (IsDropped base params final rest) :=
  inferInstanceAs (Decidable (_ ∧ _ ∧ _ ∧ _))

section

variable {s params rest : Text} {c final : Char}

/-- Into no text, no base is put. -/
theorem reapplyFrom_nil (base : Text) : reapplyFrom base [] = [] := by rw [reapplyFrom]

/-- A character that begins no control sequence stays, and nothing is put in behind it. -/
theorem reapplyFrom_other (base : Text) (h : c = esc → controlSequence? s = none) :
    reapplyFrom base (c :: s) = c :: reapplyFrom base s := by
  rw [reapplyFrom]
  split
  · rename_i hsome
    exact absurd (hsome.symm.trans (search_other h)) (Option.some_ne_none _)
  · rfl

/-- Behind a control sequence, the base is put in if it is dropped there. -/
theorem reapplyFrom_sequence (base : Text) (hparams : ∀ c ∈ params, isFinal c = false)
    (hfinal : isFinal final = true) (rest : Text) :
    reapplyFrom base (controlText params final ++ rest) =
      controlText params final ++
        ((if IsDropped base params final rest then base else []) ++ reapplyFrom base rest) := by
  have htext : controlText params final ++ rest = esc :: ('[' :: params ++ final :: rest) := by
    simp [controlText]
  rw [htext, reapplyFrom]
  split
  · rename_i hsome
    cases (search_sequence hparams hfinal).symm.trans hsome
    have hsame : (final = 'm' && esc :: '[' :: params ++ [final] ≠ base && !base.isPrefixOf rest &&
        resetsBase params) = true ↔ IsDropped base params final rest := by
      simp [IsDropped, controlText, and_assoc, ← Bool.not_eq_true, List.isPrefixOf_iff_prefix]
    simp only [hsame]
    rw [List.append_assoc]
    rfl
  · rename_i hnone
    exact absurd ((search_sequence hparams hfinal).symm.trans hnone) (Option.some_ne_none _)

end

/-! ## What is shown -/

/-- **Behind an attribute sequence the reader is between sequences**, wherever it was before. -/
theorem after_sequence {params : Text} (h : ∀ c ∈ params, isFinal c = false) (q : Scan) :
    q.after (controlText params 'm') = .plain := by
  -- between sequences, characters that are not final open nothing but pairs
  have hpairs : ∀ q : Scan, q = .plain ∨ q = .escape → (q.after params).next 'm' = .plain := by
    induction params with
    | nil => rintro q (rfl | rfl) <;> rfl
    | cons c params ih =>
      intro q hq
      have hc : isFinal c = false := h c List.mem_cons_self
      have hbracket : c ≠ '[' ∧ c ≠ ']' := by
        constructor <;> (rintro rfl; exact absurd hc (by decide))
      refine ih (fun d hd => h d (List.mem_cons_of_mem _ hd)) (q.next c) ?_
      rcases hq with rfl | rfl
      · rw [Scan.next]
        split
        · exact Or.inr rfl
        · exact Or.inl rfl
      · rw [Scan.next, if_neg hbracket.1, if_neg hbracket.2]
        exact Or.inl rfl
  have hcontrol : Scan.control.after params = .control := (Scan.read_params h).1
  rw [controlText, List.cons_append, List.cons_append, Scan.after_cons, Scan.after_cons,
    Scan.after_append, Scan.after_cons, Scan.after_nil]
  cases q with
  | plain =>
    show (Scan.control.after params).next 'm' = .plain
    rw [hcontrol]
    rfl
  | escape | control | command | commandEscape => exact hpairs .plain (Or.inl rfl)

/-- Putting the base back brings the reader to the same place, and shows the same. -/
theorem read_reapplyFrom {base : Text} (hbase : IsUnseen base) (s : Text) (q : Scan) :
    q.after (reapplyFrom base s) = q.after s ∧ q.shown (reapplyFrom base s) = q.shown s := by
  induction s using scan_induction generalizing q with
  | nil => rw [reapplyFrom_nil]; exact ⟨rfl, rfl⟩
  | other c s hother ih =>
    obtain ⟨hafter, hshown⟩ := ih (q.next c)
    rw [reapplyFrom_other base hother, Scan.after_cons, Scan.after_cons, Scan.shown, Scan.shown, hafter,
      hshown]
    exact ⟨rfl, rfl⟩
  | sequence params final rest hparams hfinal ih =>
    obtain ⟨hafter, hshown⟩ := ih (q.after (controlText params final))
    rw [reapplyFrom_sequence base hparams hfinal]
    simp only [Scan.after_append, Scan.shown_append]
    by_cases hdropped : IsDropped base params final rest
    · -- the base is put in between sequences
      have hattributes : final = 'm' := hdropped.1
      subst hattributes
      have hplain := after_sequence hparams q
      have hcomplete : Scan.plain.after base = .plain := hbase.complete
      have hunseen : Scan.plain.shown base = [] := hbase.strip
      rw [hplain] at hafter hshown
      rw [if_pos hdropped, hplain, hcomplete, hunseen, hafter, hshown]
      exact ⟨rfl, rfl⟩
    · rw [if_neg hdropped, Scan.after_nil, Scan.shown_nil, hafter, hshown]
      exact ⟨rfl, rfl⟩

/-- The same holds of a base that is empty, and of one that is not. -/
theorem read_reapplyBase {base : Text} (hbase : IsUnseen base) (line : Text) (q : Scan) :
    q.after (reapplyBase line base) = q.after line ∧ q.shown (reapplyBase line base) = q.shown line := by
  unfold reapplyBase
  split
  · exact ⟨rfl, rfl⟩
  · exact read_reapplyFrom hbase line q

/-! ## Taking the base out again -/

/-- What stands in front of the first piece stands in front of all of them. -/
theorem joinWith_prepend (sep front piece : Text) (rest : List Text) :
    joinWith sep ((front ++ piece) :: rest) = front ++ joinWith sep (piece :: rest) := by
  cases rest with
  | nil => rfl
  | cons => simp [joinWith]

/-- The text is cut somewhere, and the base put into the cuts. -/
theorem exists_parts (base s : Text) :
    ∃ parts, parts.flatten = s ∧ reapplyFrom base s = joinWith base parts := by
  -- for the induction, there has to be a first part that more characters can be put in front of
  have hparts : ∃ part parts, (part :: parts).flatten = s ∧
      reapplyFrom base s = joinWith base (part :: parts) := by
    induction s using scan_induction with
    | nil => exact ⟨[], [], rfl, reapplyFrom_nil base⟩
    | other c s hother ih =>
      obtain ⟨part, parts, rfl, heq⟩ := ih
      refine ⟨c :: part, parts, rfl, ?_⟩
      rw [reapplyFrom_other base hother, heq]
      exact (joinWith_prepend base [c] part parts).symm
    | sequence params final rest hparams hfinal ih =>
      obtain ⟨part, parts, rfl, heq⟩ := ih
      rw [reapplyFrom_sequence base hparams hfinal, heq]
      split
      · -- the base is put behind a sequence that drops a colour of it, and a new part begins there
        refine ⟨controlText params final, part :: parts, rfl, ?_⟩
        rw [joinWith_cons (List.cons_ne_nil _ _), List.append_assoc]
      · refine ⟨controlText params final ++ part, parts, ?_, ?_⟩
        · rw [List.flatten_cons, List.flatten_cons, List.append_assoc]
        · exact (joinWith_prepend base (controlText params final) part parts).symm
  obtain ⟨part, parts, hflatten, heq⟩ := hparts
  exact ⟨part :: parts, hflatten, heq⟩

/-! ## Where the base is, once it is put back

The induction goes along the text.  A sequence that drops a colour of the base has the base behind it,
and the base itself is left alone. -/

/-- Whether the base is in place behind a control sequence: it was not dropped, or it is put back. -/
def Sequence.Keeps (base : Text) (q : Sequence) : Prop :=
  q.final = 'm' → DropsColour (cutAt ';' q.params) →
    controlText q.params q.final = base ∨ base <+: q.behind

/-- A text in which the base is in place everywhere stays as it is. -/
theorem reapplyFrom_of_keeps {base s : Text} (h : ∀ q ∈ sequences s, q.Keeps base) :
    reapplyFrom base s = s := by
  induction s using scan_induction with
  | nil => exact reapplyFrom_nil base
  | other c s hother ih =>
    rw [sequences_other hother] at h
    rw [reapplyFrom_other base hother, ih h]
  | sequence params final rest hparams hfinal ih =>
    rw [sequences_sequence hparams hfinal] at h
    have hkept : ¬ IsDropped base params final rest := by
      rintro ⟨hattributes, hother, hbehind, hresets⟩
      rcases h _ List.mem_cons_self hattributes ((resetsColour_iff _).1 hresets) with hsame | hbase
      · exact hother hsame
      · exact hbehind hbase
    rw [reapplyFrom_sequence base hparams hfinal, if_neg hkept, List.nil_append,
      ih fun q hq => h q (List.mem_cons_of_mem _ hq)]

/-- Text without a final character has no control sequences. -/
theorem reapplyFrom_of_not_final (base : Text) {s : Text} (h : ∀ c ∈ s, isFinal c = false) :
    reapplyFrom base s = s := by
  induction s with
  | nil => exact reapplyFrom_nil base
  | cons c s ih =>
    have hs : ∀ d ∈ s, isFinal d = false := fun d hd => h d (List.mem_cons_of_mem _ hd)
    have hnone : controlSequence? s = none := by
      refine controlSequence?_eq_none_iff.2 ?_
      rintro t rfl
      exact absurd (hs '[' List.mem_cons_self) (by decide)
    rw [reapplyFrom_other base fun _ => hnone, ih hs]

/-- The first character stays the first one. -/
theorem head?_reapplyFrom (base s : Text) : (reapplyFrom base s).head? = s.head? := by
  induction s using scan_induction with
  | nil => rw [reapplyFrom_nil]
  | other c s hother ih => rw [reapplyFrom_other base hother]; rfl
  | sequence params final rest hparams hfinal ih =>
    rw [reapplyFrom_sequence base hparams hfinal]
    rfl

/-- An escape character that begins no control sequence does not do so when the base is put back. -/
theorem controlSequence?_reapplyFrom {base s : Text} (h : controlSequence? s = none) :
    controlSequence? (reapplyFrom base s) = none := by
  have hends := controlSequence?_eq_none_iff.1 h
  refine controlSequence?_eq_none_iff.2 fun t ht => ?_
  have hhead := head?_reapplyFrom base s
  rw [ht] at hhead
  cases s with
  | nil => exact nomatch hhead
  | cons d s =>
    obtain rfl : '[' = d := Option.some.inj hhead
    -- nothing behind the bracket ends a control sequence, so nothing is put in there
    have hnone : reapplyFrom base s = s := reapplyFrom_of_not_final base (hends s rfl)
    rw [reapplyFrom_other base (fun hc => absurd hc (by decide)), hnone] at ht
    exact (List.cons.inj ht).2 ▸ hends s rfl

section

variable {params : Text} (hparams : IsParams params)
include hparams

/-- The parameters of a base have no final character among them. -/
theorem IsParams.isFinal_eq_false : ∀ c ∈ params, isFinal c = false := fun _ hc => hparams.not_final hc

/-- The base itself is left alone. -/
theorem reapplyFrom_attributes_append (rest : Text) :
    reapplyFrom (attributes params) (attributes params ++ rest) =
      attributes params ++ reapplyFrom (attributes params) rest := by
  have hkept : ¬ IsDropped (attributes params) params 'm' rest := fun hdropped => hdropped.2.1 rfl
  have hattributes : isFinal 'm' = true := by decide
  have hstep := reapplyFrom_sequence (attributes params) hparams.isFinal_eq_false hattributes rest
  rw [if_neg hkept, List.nil_append] at hstep
  exact hstep

/-- **Once it is put back, the base is in place everywhere**. -/
theorem keeps_reapplyFrom (s : Text) :
    ∀ q ∈ sequences (reapplyFrom (attributes params) s), q.Keeps (attributes params) := by
  induction s using scan_induction with
  | nil =>
    rw [reapplyFrom_nil, sequences]
    exact nofun
  | other c s hother ih =>
    rw [reapplyFrom_other _ hother, sequences_other fun hc => controlSequence?_reapplyFrom (hother hc)]
    exact ih
  | sequence params' final rest hparams' hfinal ih =>
    rw [reapplyFrom_sequence _ hparams' hfinal, sequences_sequence hparams' hfinal]
    intro q hq
    by_cases hdropped : IsDropped (attributes params) params' final rest
    · -- the base is put in, and is a control sequence itself
      rw [if_pos hdropped] at hq
      rcases List.mem_cons.1 hq with rfl | hq
      · exact fun _ _ => Or.inr (List.prefix_append _ _)
      · have hattributes : isFinal 'm' = true := by decide
        have hbase := sequences_sequence hparams.isFinal_eq_false hattributes
          (reapplyFrom (attributes params) rest)
        rw [show attributes params = controlText params 'm' from rfl] at hq hbase ih ⊢
        rw [hbase] at hq
        rcases List.mem_cons.1 hq with rfl | hq
        · exact fun _ _ => Or.inl rfl
        · exact ih q hq
    · rw [if_neg hdropped, List.nil_append] at hq
      rcases List.mem_cons.1 hq with rfl | hq
      · -- nothing was put in, so the sequence is the base or has it behind it, unless it drops
        -- nothing
        intro hattributes hdrops
        by_cases hsame : controlText params' final = attributes params
        · exact Or.inl hsame
        · by_cases hbehind : attributes params <+: rest
          · obtain ⟨t, rfl⟩ := hbehind
            refine Or.inr ?_
            show attributes params <+: reapplyFrom (attributes params) (attributes params ++ t)
            rw [reapplyFrom_attributes_append hparams]
            exact List.prefix_append _ _
          · exact absurd ⟨hattributes, hsame, hbehind, (resetsColour_iff _).2 hdrops⟩ hdropped
      · exact ih q hq

end

/-! ## The base of a style set -/

/-- **Putting the base back changes only styling**, for the base style of any style set and any row.  What
    is shown stays the same, and so does the width; taking some bases out again gives the row; behind each
    control sequence that drops a colour of the base, the base is put back, unless the sequence is the base
    itself; and a second time there is nothing to do. -/
theorem base_restored (theme : Theme) (colour : Bool) (line : Text) :
    let base := (StyleSet.build theme colour).base
    strip (reapplyBase line base) = strip line ∧
      visibleWidth (reapplyBase line base) = visibleWidth line ∧
      (∃ parts, parts.flatten = line ∧ reapplyBase line base = joinWith base parts) ∧
      (∀ q ∈ sequences (reapplyBase line base), q.Keeps base) ∧
      reapplyBase (reapplyBase line base) base = reapplyBase line base := by
  cases colour with
  | false =>
    -- without colour the base is empty, and nothing is put in
    refine ⟨rfl, rfl, ⟨[line], List.flatten_singleton, rfl⟩, fun q _ _ _ => Or.inr ?_, rfl⟩
    exact List.nil_prefix
  | true =>
    have hparams := StyleSet.isParams_base theme
    have hstrip := (read_reapplyFrom (StyleSet.isUnseen_base theme) line .plain).2
    have hkeeps := keeps_reapplyFrom hparams line
    exact ⟨hstrip, congrArg List.length hstrip, exists_parts _ line, hkeeps, reapplyFrom_of_keeps hkeeps⟩

/-- A reset inside a command that has no end, and a zero that is a colour number. -/
example : reapplyBase "\x1b]8\x1b[0mhi\x1b[38;5;0m".toList "\x1b[32m".toList =
    "\x1b]8\x1b[0m\x1b[32mhi\x1b[38;5;0m".toList := by decide +kernel

end TunnelBoard
