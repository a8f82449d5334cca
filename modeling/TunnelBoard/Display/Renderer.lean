import TunnelBoard.Display.Content
import TunnelBoard.Frame.Card
import TunnelBoard.Style.TabStrip
import TunnelBoard.Traffic.Sparkline
/-
  From a session to a frame: a full screen of rows.

  The content of the phase is boxed, the box centered, and the screen filled.  Style sets, tab strips
  and flat lines are remembered from frame to frame; a frame is the same without what is remembered.
-/

namespace TunnelBoard

/-- What is remembered from frame to frame. -/
structure Renderer where
  styles : StyleCache
  tabs : TabStripCache
  flatLines : Memo Nat Text

namespace Renderer

def empty (colour : Bool) : Renderer :=
  ⟨.empty colour, .empty (Screen.all.map Screen.label), .empty⟩

/-- The width inside the box. -/
def innerWidth (s : Session) : Nat :=
  max (min (max s.size.columns 1 - 4) s.settings.maxCardWidth) 1

/-- The graph of some samples. -/
def graph (c : Renderer) (samples : Samples) (width : Nat) : Text × Renderer :=
  if width ≠ 0 ∧ (samples.recent width).all (· = 0) then
    let (line, flatLines) := c.flatLines.get width baseline
    (line, { c with flatLines })
  else (sparkline samples.slots samples.count samples.cursor width, c)

/-- The screen of the data plane. -/
def dataplane (c : Renderer) (r : Monitor) (styles : StyleSet) (inner : Nat) (now : Int) :
    List Text × Renderer :=
  let above := Content.statusRows r styles now ++ Content.statsRows r styles
  if r.prefs.showGraph then
    let (rx, c) := c.graph r.rx (Content.graphWidth inner)
    let (tx, c) := c.graph r.tx (Content.graphWidth inner)
    (above ++ Content.graphRows rx tx styles, c)
  else (above, c)

/-- The screen that is shown, and the hints that go with it. -/
def screen (c : Renderer) (r : Monitor) (styles : StyleSet) (inner : Nat) (now : Int) :
    List Text × HintContext × Renderer :=
  match r.screen with
  | .dataplane =>
    let (lines, c) := c.dataplane r styles inner now
    (lines, .dataplane, c)
  | .settings => (Content.settings r.prefs r.row styles inner, .settings, c)
  | .logs => (Content.logs r styles inner, .logs, c)

/-- The monitor of a running data plane. -/
def monitor (c : Renderer) (r : Monitor) (styles : StyleSet) (inner : Nat) (now : Int) :
    List Text × Renderer :=
  match r.confirm with
  | some choice => (Content.confirm r choice styles inner, c)
  | none =>
    let (strip, tabs) := c.tabs.get styles r.screen.index inner
    let (lines, context, c) := screen { c with tabs } r styles inner now
    (strip :: [] :: lines ++ Content.footer r.prefs context styles inner, c)

/-- The content of the phase. -/
def content (c : Renderer) (s : Session) (styles : StyleSet) (now : Int) : List Text × Renderer :=
  let inner := innerWidth s
  match s.phase, s.monitor with
  | .configuring, _ => (Content.configuring s styles inner, c)
  | .waiting, _ => (Content.waiting s styles inner, c)
  | .runtime, some r => c.monitor r styles inner now
  | .runtime, none => (Content.waiting s styles inner, c)
  | .fatal, _ => (Content.fatal s styles inner, c)

/-- The frame of a session at a moment. -/
def render (c : Renderer) (s : Session) (now : Int) : List Text × Renderer :=
  let width := max s.size.columns 1
  let height := max s.size.rows 1
  let (set, styles) := c.styles.get s.prefs.theme
  let (lines, c) := content { c with styles } s set now
  (fill (center (card lines (innerWidth s) set) width height) width height set.base set.reset, c)

end Renderer
end TunnelBoard
