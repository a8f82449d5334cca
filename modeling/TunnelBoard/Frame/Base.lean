import TunnelBoard.Text.Escape
/-
  Keeping the frame's base style alive inside a row.

  Text that resets its own colours also resets those of the frame behind it.  `reapplyBase` puts
  the base style back after every control sequence that sets attributes and drops a colour of the
  base, unless the base is put there already.
-/

namespace TunnelBoard

/-- How many parameters after `38` or `48` belong to that colour: `5` and an index, or `2` and three
    parts. -/
def colourArguments : List Text → Nat
  | ['5'] :: _ => 2
  | ['2'] :: _ => 4
  | _ => 0

/-- Whether a list of attribute parameters drops the foreground or the background.  The arguments
    of an extended colour are skipped, so a colour number of zero is no reset. -/
def resetsColour : List Text → Bool
  | [] => false
  | param :: rest =>
    if param = [] ∨ param = ['0'] ∨ param = ['0', '0'] ∨ param = ['3', '9'] ∨ param = ['4', '9'] then
      true
    else if param = ['3', '8'] ∨ param = ['4', '8'] then
      resetsColour (rest.drop (colourArguments rest))
    else resetsColour rest
termination_by params => params.length
decreasing_by all_goals (simp only [List.length_cons, List.length_drop]; omega)

/-- Whether an attribute sequence with these parameters drops a colour of the base. -/
def resetsBase (params : Text) : Bool := resetsColour (cutAt ';' params)

/-- A control sequence whose escape character has just been read: its parameters, its final
    character and the text after it. -/
def controlSequence? : Text → Option (Text × Char × Text)
  | '[' :: s =>
    match s.dropWhile (!isFinal ·) with
    | [] => none
    | final :: rest => some (s.takeWhile (!isFinal ·), final, rest)
  | _ => none

theorem length_lt_of_controlSequence? {s params rest : Text} {final : Char}
    (h : controlSequence? s = some (params, final, rest)) : rest.length < s.length := by
  unfold controlSequence? at h
  split at h
  · rename_i s
    have := (List.dropWhile_sublist (l := s) (!isFinal ·)).length_le
    split at h
    · simp at h
    · rename_i hd
      simp only [hd, Option.some.injEq, Prod.mk.injEq] at h this
      obtain ⟨-, -, rfl⟩ := h
      simp at *
      omega
  · simp at h

/-- Put `base` back after every attribute sequence that drops it. -/
def reapplyFrom (base : Text) : Text → Text
  | [] => []
  | c :: s =>
    match _h : if c = esc then controlSequence? s else none with
    | some (params, final, rest) =>
      let sequence := esc :: '[' :: params ++ [final]
      let again := final = 'm' && sequence ≠ base && !base.isPrefixOf rest && resetsBase params
      sequence ++ (if again then base else []) ++ reapplyFrom base rest
    | none => c :: reapplyFrom base s
termination_by s => s.length
decreasing_by
  · split at _h
    · have := length_lt_of_controlSequence? _h
      simp; omega
    · simp at _h
  · simp

/-- The row with its base style restored wherever it is dropped. -/
def reapplyBase (line base : Text) : Text :=
  if base.isEmpty then line else reapplyFrom base line

end TunnelBoard
