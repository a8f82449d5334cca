import TunnelBoard.Text.Blank
/-
  The selectable themes and their colours, as indices into the terminal's 256-colour table.

  A theme is found by name without regard to blanks around it and to the case of ASCII letters; a
  name that is none of them gives the default theme.
-/

namespace TunnelBoard

inductive Theme where
  | midnight | daylight | solarized | forest | mono
  deriving DecidableEq, Repr

/-- The colours of one theme. -/
structure Palette where
  background : Nat
  text : Nat
  muted : Nat
  brand : Nat
  accent : Nat
  activeBackground : Nat
  activeText : Nat
  deriving DecidableEq, Repr

namespace Theme

/-- The themes in the order the settings screen steps through them. -/
def all : List Theme := [midnight, daylight, solarized, forest, mono]

def name : Theme → Text
  | midnight => "midnight".toList
  | daylight => "daylight".toList
  | solarized => "solarized".toList
  | forest => "forest".toList
  | mono => "mono".toList

/-- The theme with a given name, or the default one. -/
def ofName (name : Text) : Theme :=
  (all.find? fun t => t.name = lowerAscii (trim name)).getD midnight

/-- The theme after this one, going round. -/
def next : Theme → Theme
  | midnight => daylight
  | daylight => solarized
  | solarized => forest
  | forest => mono
  | mono => midnight

/-- The theme before this one, going round. -/
def prev : Theme → Theme
  | midnight => mono
  | daylight => midnight
  | solarized => daylight
  | forest => solarized
  | mono => forest

def palette : Theme → Palette
  | midnight => ⟨234, 252, 244, 45, 214, 31, 231⟩
  | daylight => ⟨255, 235, 245, 25, 166, 25, 255⟩
  | solarized => ⟨235, 187, 242, 37, 136, 37, 230⟩
  | forest => ⟨233, 151, 65, 114, 179, 28, 194⟩
  | mono => ⟨16, 250, 242, 255, 255, 250, 16⟩

@[simp] theorem prev_next (t : Theme) : t.next.prev = t := by cases t <;> rfl

@[simp] theorem next_prev (t : Theme) : t.prev.next = t := by cases t <;> rfl

end Theme
end TunnelBoard
