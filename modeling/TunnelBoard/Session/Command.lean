/-
  Trees of effects.

  The reducer answers every message with a `Command`: nothing, one effect, or a batch of commands.
  `flatten` lists the effects in the order they are to be carried out; `Command.ofList` is the
  batch without the empty parts.
-/

namespace TunnelBoard

/-- Effects of type `ε`, grouped. -/
inductive Command (ε : Type) where
  | none
  | one (effect : ε)
  | batch (parts : List (Command ε))
  deriving Repr

namespace Command

variable {ε : Type}

instance : Inhabited (Command ε) := ⟨none⟩

mutual

/-- The effects from left to right. -/
def flatten : Command ε → List ε
  | none => []
  | one effect => [effect]
  | batch parts => flattenAll parts

/-- The effects of several commands from left to right. -/
def flattenAll : List (Command ε) → List ε
  | [] => []
  | c :: rest => c.flatten ++ flattenAll rest

end

/-- Whether this is the empty command itself; an empty batch is not. -/
def isNone : Command ε → Bool
  | none => true
  | _ => false

/-- Several commands as one: empty ones are left out, and a single one stays as it is. -/
def ofList (cmds : List (Command ε)) : Command ε :=
  match cmds.filter (!·.isNone) with
  | [] => none
  | [c] => c
  | cs => batch cs

end Command
end TunnelBoard
