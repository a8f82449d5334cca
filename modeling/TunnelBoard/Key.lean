import TunnelBoard.Text.Basic
/-
  Keys, what they mean, and the hints at the bottom of each screen.
-/

namespace TunnelBoard

/-- A key as the terminal reports it. -/
inductive KeyCode where
  | char (c : Char)
  | up | down | left | right
  | enter | esc | tab | backtab
  | pageUp | pageDown | home | endKey
  /-- Any key no action is bound to. -/
  | other
  deriving DecidableEq, Repr

inductive KeyKind where
  | press | repeated | release
  deriving DecidableEq, Repr

/-- A key with what was held and what happened to it. -/
structure Key where
  code : KeyCode
  control : Bool
  kind : KeyKind
  deriving DecidableEq, Repr

/-- What a key means to the dashboard. -/
inductive Action where
  | up | down | left | right
  | select | back | quit
  | nextTab | prevTab
  | pageUp | pageDown | first | last
  | space
  deriving DecidableEq, Repr

namespace Action

def all : List Action :=
  [up, down, left, right, select, back, quit, nextTab, prevTab, pageUp, pageDown, first, last, space]

def name : Action → Text
  | up => "up".toList
  | down => "down".toList
  | left => "left".toList
  | right => "right".toList
  | select => "select".toList
  | back => "back".toList
  | quit => "quit".toList
  | nextTab => "next_tab".toList
  | prevTab => "prev_tab".toList
  | pageUp => "page_up".toList
  | pageDown => "page_down".toList
  | first => "home".toList
  | last => "end".toList
  | space => "space".toList

/-- The action with a name. -/
def ofName? (s : Text) : Option Action := all.find? fun a => a.name = s

/-- Whether the action closes the screen of a fatal error. -/
def dismissesFatal : Action → Bool
  | select | back | quit | space => true
  | _ => false

end Action

namespace KeyCode

/-- The action of a key on its own. -/
def action? : KeyCode → Option Action
  | up | char 'k' => some .up
  | down | char 'j' => some .down
  | left | char 'h' => some .left
  | right | char 'l' => some .right
  | enter => some .select
  | esc => some .back
  | char 'q' | char 'Q' => some .quit
  | tab => some .nextTab
  | backtab => some .prevTab
  | pageUp => some .pageUp
  | pageDown => some .pageDown
  | home | char 'g' => some .first
  | endKey | char 'G' => some .last
  | char ' ' => some .space
  | _ => none

end KeyCode

namespace Key

/-- The action of a key event.  Letting a key go means nothing, and with Control held only `c`
    means anything: leave. -/
def action? (k : Key) : Option Action :=
  if k.kind = .release then none
  else if k.control then
    if k.code = .char 'c' ∨ k.code = .char 'C' then some .quit else none
  else k.code.action?

end Key

/-! ## Hints -/

/-- Where the operator is, as far as the hints are concerned. -/
inductive HintContext where
  | configurator | waiting | dataplane | settings | logs | confirm | fatal
  deriving DecidableEq, Repr

namespace HintContext

/-- The keys worth naming, each with what it does. -/
def bindings : HintContext → List (Text × Text)
  | configurator =>
    [("↑/↓".toList, "choose".toList), ("enter".toList, "start".toList),
      ("esc".toList, "quit".toList)]
  | waiting => [("q".toList, "quit".toList)]
  | dataplane =>
    [("tab".toList, "screens".toList), ("enter".toList, "stop".toList), ("q".toList, "quit".toList)]
  | settings =>
    [("↑/↓".toList, "select".toList), ("←/→".toList, "change".toList),
      ("tab".toList, "screens".toList)]
  | logs =>
    [("↑/↓".toList, "scroll".toList), ("end".toList, "follow".toList),
      ("space".toList, "pause".toList), ("tab".toList, "screens".toList)]
  | confirm =>
    [("←/→".toList, "choose".toList), ("enter".toList, "confirm".toList),
      ("esc".toList, "cancel".toList)]
  | fatal => [("enter".toList, "exit".toList)]

/-- The hints on one line. -/
def line (c : HintContext) : Text :=
  joinWith " · ".toList (c.bindings.map fun b => b.1 ++ ' ' :: b.2)

end HintContext
end TunnelBoard
