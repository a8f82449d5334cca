import Mathlib.Data.List.Forall2
import TunnelBoard.Session.Command
/-
  What a tree of commands flattens to.

  `Command.ofList` leaves out the empty commands and does not wrap a single one, which is not seen in
  what it flattens to: the effects of all its commands, one after the other (`flatten_ofList`).  It is
  seen in whether anything is left: an empty batch is not left out, so only from empty commands comes
  the empty one (`ofList_eq_none_iff`).

  Effects may be put into batches in many ways (`Groups`).  To flatten a command forgets the way and
  nothing else (`groups_iff`).  One direction is an induction on the way, the other one on the
  command, for which the principle is stated here, since the commands in a batch stand in a list
  (`Command.induction`).
-/

namespace TunnelBoard
namespace Command

variable {ε : Type}

@[simp] theorem flatten_none : (none : Command ε).flatten = [] := by rw [flatten]

@[simp] theorem flatten_one (e : ε) : (one e).flatten = [e] := by rw [flatten]

/-- Commands in a row are flattened one after the other. -/
theorem flattenAll_eq (cmds : List (Command ε)) : flattenAll cmds = cmds.flatMap flatten := by
  induction cmds with
  | nil => rw [flattenAll]; rfl
  | cons c cmds ih => rw [flattenAll, ih, List.flatMap_cons]

@[simp] theorem flatten_batch (cmds : List (Command ε)) :
    (batch cmds).flatten = cmds.flatMap flatten := by rw [flatten, flattenAll_eq]

/-- Only the empty command itself is left out, and it has no effects. -/
theorem flatMap_filter_isNone (cmds : List (Command ε)) :
    (cmds.filter (!·.isNone)).flatMap flatten = cmds.flatMap flatten := by
  induction cmds with
  | nil => rfl
  | cons c cmds ih =>
    rw [List.flatMap_cons, ← ih]
    cases c with
    | none => rw [List.filter_cons_of_neg (by simp [isNone]), flatten_none, List.nil_append]
    | one e => rw [List.filter_cons_of_pos rfl, List.flatMap_cons]
    | batch parts => rw [List.filter_cons_of_pos rfl, List.flatMap_cons]

/-- Several commands as one have all their effects, in their order. -/
theorem flatten_ofList (cmds : List (Command ε)) : (ofList cmds).flatten = cmds.flatMap flatten := by
  rw [← flatMap_filter_isNone]
  unfold ofList
  -- none, one or several are left
  split
  · rename_i h
    rw [h, flatten_none]
    rfl
  · rename_i c h
    rw [h, List.flatMap_singleton]
  · exact flatten_batch _

/-! ## When nothing is left -/

/-- The empty command is the only one that counts as none. -/
theorem isNone_iff {c : Command ε} : c.isNone = true ↔ c = none := by
  cases c with
  | none => simp [isNone]
  | one e => simp [isNone]
  | batch parts => simp [isNone]

/-- Several commands as one are the empty command if there is no other among them. -/
theorem ofList_eq_none_iff {cmds : List (Command ε)} : ofList cmds = none ↔ ∀ c ∈ cmds, c = none := by
  have hkept : cmds.filter (!·.isNone) = [] ↔ ∀ c ∈ cmds, c = none := by
    simp [List.filter_eq_nil_iff, isNone_iff]
  rw [← hkept]
  unfold ofList
  split
  · rename_i h
    simp [h]
  · -- the one that is left was not empty
    rename_i c h
    have hmem : c ∈ cmds.filter (!·.isNone) := h ▸ List.mem_singleton_self c
    have hc : ¬ c = none := by
      intro hc
      have hleft := (List.mem_filter.1 hmem).2
      simp [isNone_iff.2 hc] at hleft
    simp [h, hc]
  · rename_i hnil _
    constructor
    · intro h
      cases h
    · intro h
      exact absurd h hnil

/-! ## Groups of effects -/

/-- What holds of a batch if it holds of its parts holds of every command. -/
theorem induction {P : Command ε → Prop} (none : P none) (one : ∀ e, P (one e))
    (batch : ∀ parts, (∀ c ∈ parts, P c) → P (batch parts)) : ∀ c, P c
  | .none => none
  | .one e => one e
  | .batch parts => batch parts fun c _ => induction none one batch c

/-- A command that is made of some effects, in their order, put into batches in whatever way. -/
inductive Groups : List ε → Command ε → Prop where
  | none : Groups [] Command.none
  | one (e : ε) : Groups [e] (Command.one e)
  | nil : Groups [] (batch [])
  | cons {es fs : List ε} {c : Command ε} {cmds : List (Command ε)} (first : Groups es c)
      (rest : Groups fs (batch cmds)) : Groups (es ++ fs) (batch (c :: cmds))
  | ofList {es : List ε} {cmds : List (Command ε)} (parts : Groups es (batch cmds)) :
      Groups es (Command.ofList cmds)

/-- However effects are grouped, they come out as they are. -/
theorem Groups.flatten_eq {es : List ε} {c : Command ε} (h : Groups es c) : c.flatten = es := by
  induction h with
  | none => exact flatten_none
  | one e => exact flatten_one e
  | nil => exact flatten_batch []
  | cons first rest ihfirst ihrest =>
    rw [flatten_batch] at ihrest
    rw [flatten_batch, List.flatMap_cons, ihfirst, ihrest]
  | ofList parts ih =>
    rw [flatten_batch] at ih
    rw [flatten_ofList, ih]

/-- A command groups the effects that it flattens to. -/
theorem groups_flatten (c : Command ε) : Groups c.flatten c := by
  induction c using Command.induction with
  | none =>
    rw [flatten_none]
    exact .none
  | one e =>
    rw [flatten_one]
    exact .one e
  | batch parts ih =>
    rw [flatten_batch]
    induction parts with
    | nil => exact .nil
    | cons c parts ihparts =>
      rw [List.flatMap_cons]
      exact .cons (ih c List.mem_cons_self) (ihparts fun d hd => ih d (List.mem_cons_of_mem _ hd))

/-- **What a command flattens to** are the effects that it groups, however it does so. -/
theorem groups_iff {es : List ε} {c : Command ε} : Groups es c ↔ c.flatten = es :=
  ⟨Groups.flatten_eq, fun h => h ▸ groups_flatten c⟩

/-- Commands that group some effects each group all of them, one after the other. -/
theorem flatten_of_groups {ess : List (List ε)} {cmds : List (Command ε)}
    (h : List.Forall₂ Groups ess cmds) : ess.flatten = cmds.flatMap flatten := by
  induction h with
  | nil => rfl
  | cons first rest ih => rw [List.flatten_cons, List.flatMap_cons, first.flatten_eq, ih]

end Command
end TunnelBoard
