import TunnelBoard.Failure
import TunnelBoard.Key
import TunnelBoard.Mode
/-
  The list of modes the operator picks from before the data plane starts.

  The picker always offers at least one mode and its cursor is always on one of them; both facts
  are part of the type.
-/

namespace TunnelBoard

/-- Modes on offer, with the cursor on one of them. -/
structure ModePicker where
  modes : List Mode
  selected : Nat
  selected_lt : selected < modes.length
  deriving DecidableEq

/-- What one key did to the picker. -/
inductive PickOutcome where
  | pending (picker : ModePicker)
  | selected (mode : Mode)
  | cancelled

namespace ModePicker

/-- The complaint when nothing is on offer. -/
def noModes : SessionError := .configurator "no tunnel modes are enabled".toList

/-- The list without repetitions, each mode where it first stood. -/
def distinct (modes : List Mode) : List Mode :=
  modes.foldl (fun seen m => if m ∈ seen then seen else seen ++ [m]) []

/-- A picker over `modes`, with the cursor on `preselect` if that is on offer. -/
def make (modes : List Mode) (preselect : Option Mode) : Except SessionError ModePicker :=
  let offered := distinct modes
  let start := (preselect.bind fun m => offered.idxOf? m).getD 0
  if h : start < offered.length then .ok ⟨offered, start, h⟩
  else if h : 0 < offered.length then .ok ⟨offered, 0, h⟩
  else .error noModes

theorem length_pos (p : ModePicker) : 0 < p.modes.length := by have := p.selected_lt; omega

/-- The mode under the cursor. -/
def current (p : ModePicker) : Mode := p.modes.get ⟨p.selected, p.selected_lt⟩

/-- Move the cursor to a position, taken round the end of the list. -/
def moveTo (p : ModePicker) (index : Nat) : ModePicker :=
  ⟨p.modes, index % p.modes.length, Nat.mod_lt _ p.length_pos⟩

/-- Apply one action. -/
def handle (p : ModePicker) : Action → PickOutcome
  | .up | .left | .prevTab => .pending (p.moveTo (p.selected + p.modes.length - 1))
  | .down | .right | .nextTab => .pending (p.moveTo (p.selected + 1))
  | .first => .pending (p.moveTo 0)
  | .last => .pending (p.moveTo (p.modes.length - 1))
  | .select | .space => .selected p.current
  | .back => .cancelled
  | .quit | .pageUp | .pageDown => .pending p

end ModePicker
end TunnelBoard
