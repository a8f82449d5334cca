import TunnelBoard.Display.Renderer
/-
  What a renderer remembers is what it would compute.

  A renderer begins with nothing remembered, and remembers styles, strips of tabs and flat lines under
  all that they are made of; so each look-up gives what computing would give, whatever was rendered
  before (`IsFaithful`).  Where a key leaves out something that the value depends on, the labels and
  the colour mode, this is the same for as long as the renderer lives, and `IsFaithful` says so.

  Two things are said of each function that draws: what it draws, for a renderer that is faithful, and
  that the renderer is still faithful afterwards.  The second is what is passed on from frame to frame
  (`isFaithful_after`).
-/

namespace TunnelBoard

/-- Looking up asks the function only about the key. -/
theorem Memo.get_congr {κ ν : Type} [DecidableEq κ] (m : Memo κ ν) {key : κ} {f g : κ → ν}
    (h : f key = g key) : m.get key f = m.get key g := by
  unfold get
  rw [h]

/-- Styles are remembered under the theme that they are made for. -/
theorem StyleSet.theme_build (theme : Theme) (colour : Bool) : (build theme colour).theme = theme := by
  cases colour with
  | true => rfl
  | false => rfl

namespace Renderer

/-- The labels of the screens. -/
def labels : List Text := Screen.all.map Screen.label

/-- Whether everything that is remembered is what would be computed. -/
structure IsFaithful (colour : Bool) (c : Renderer) : Prop where
  mode : c.styles.colour = colour
  sets : c.styles.sets.Holds (StyleSet.build · colour)
  labels : c.tabs.labels = labels
  strips : c.tabs.strips.Holds fun k =>
    TabStrip.render Renderer.labels (StyleSet.build k.1 colour) k.2.1 k.2.2
  flatLines : c.flatLines.Holds baseline

variable {colour : Bool} {c : Renderer}

/-- A renderer that remembers nothing remembers nothing wrong. -/
theorem isFaithful_empty (colour : Bool) : (empty colour).IsFaithful colour :=
  ⟨rfl, Memo.holds_empty _, rfl, Memo.holds_empty _, Memo.holds_empty _⟩

namespace IsFaithful

/-- The styles of a theme, and the renderer that remembers them. -/
theorem styles (h : c.IsFaithful colour) (theme : Theme) :
    (c.styles.get theme).1 = .build theme colour ∧
      IsFaithful colour { c with styles := (c.styles.get theme).2 } := by
  obtain ⟨rfl, hsets, hlabels, hstrips, hflat⟩ := h
  exact ⟨Memo.get_fst hsets theme, ⟨rfl, Memo.holds_get hsets theme, hlabels, hstrips, hflat⟩⟩

/-- The strip of tabs, and the renderer that remembers it. -/
theorem strip (h : c.IsFaithful colour) (theme : Theme) (active width : Nat) :
    (c.tabs.get (.build theme colour) active width).1 =
        TabStrip.render Renderer.labels (.build theme colour) active width ∧
      IsFaithful colour { c with tabs := (c.tabs.get (.build theme colour) active width).2 } := by
  -- the cache is asked with styles and labels, and remembers what it computes under the theme alone
  have hsame : c.tabs.strips.get ((StyleSet.build theme colour).theme, active, width)
        (fun _ => TabStrip.render c.tabs.labels (.build theme colour) active width) =
      c.tabs.strips.get (theme, active, width) fun k =>
        TabStrip.render Renderer.labels (StyleSet.build k.1 colour) k.2.1 k.2.2 := by
    rw [StyleSet.theme_build, h.labels]
    exact Memo.get_congr _ rfl
  unfold TabStripCache.get
  rw [hsame]
  have hfst := Memo.get_fst h.strips (theme, active, width)
  have hsnd := Memo.holds_get h.strips (theme, active, width)
  exact ⟨hfst, ⟨h.mode, h.sets, h.labels, hsnd, h.flatLines⟩⟩

/-- A graph, and the renderer that remembers it. -/
theorem graph (h : c.IsFaithful colour) (samples : Samples) (width : Nat) :
    ((c.graph samples width).1 = baseline width ∨
        (c.graph samples width).1 = sparkline samples.slots samples.count samples.cursor width) ∧
      (c.graph samples width).2.IsFaithful colour := by
  unfold Renderer.graph
  split
  · have hfst := Memo.get_fst h.flatLines width
    have hsnd := Memo.holds_get h.flatLines width
    exact ⟨Or.inl hfst, ⟨h.mode, h.sets, h.labels, h.strips, hsnd⟩⟩
  · exact ⟨Or.inr rfl, h⟩

/-! ## Frames -/

variable (r : Monitor) (s : Session) (styles : StyleSet) (theme : Theme) (inner : Nat) (now : Int)

/-- The screen of the data plane draws two graphs, one after the other. -/
theorem dataplane (h : c.IsFaithful colour) :
    (c.dataplane r styles inner now).2.IsFaithful colour := by
  unfold Renderer.dataplane
  dsimp only
  split
  · have hrx := (h.graph r.rx (Content.graphWidth inner)).2
    exact (hrx.graph r.tx (Content.graphWidth inner)).2
  · exact h

/-- The other screens remember nothing. -/
theorem screen (h : c.IsFaithful colour) : (c.screen r styles inner now).2.2.IsFaithful colour := by
  unfold Renderer.screen
  split
  · exact h.dataplane r styles inner now
  · exact h
  · exact h

/-- A question is drawn without tabs. -/
theorem monitor (h : c.IsFaithful colour) :
    (c.monitor r (.build theme colour) inner now).2.IsFaithful colour := by
  unfold Renderer.monitor
  split
  · exact h
  · have htabs := (h.strip theme r.screen.index inner).2
    exact htabs.screen r (.build theme colour) inner now

/-- Of the phases only the one with a monitor has anything to remember. -/
theorem content (h : c.IsFaithful colour) :
    (c.content s (.build theme colour) now).2.IsFaithful colour := by
  unfold Renderer.content
  dsimp only
  split
  · exact h
  · exact h
  · exact h.monitor _ theme (innerWidth s) now
  · exact h
  · exact h

/-- Rendering remembers only what is right. -/
theorem render (h : c.IsFaithful colour) : (c.render s now).2.IsFaithful colour := by
  obtain ⟨hset, hstyles⟩ := h.styles s.prefs.theme
  have hcontent := hstyles.content s s.prefs.theme now
  unfold Renderer.render
  rw [← hset] at hcontent
  exact hcontent

end IsFaithful

/-- A renderer that has rendered some sessions, each at its moment. -/
def after (colour : Bool) (history : List (Session × Int)) : Renderer :=
  history.foldl (fun c frame => (c.render frame.1 frame.2).2) (empty colour)

/-- A renderer remembers only what is right, whatever it has rendered. -/
theorem isFaithful_after (colour : Bool) (history : List (Session × Int)) :
    (after colour history).IsFaithful colour := by
  have hall : ∀ c : Renderer, c.IsFaithful colour →
      (history.foldl (fun c frame => (c.render frame.1 frame.2).2) c).IsFaithful colour := by
    induction history with
    | nil => exact fun c h => h
    | cons frame history ih => exact fun c h => ih _ (h.render frame.1 frame.2)
  exact hall _ (isFaithful_empty colour)

/-- A frame is the content, boxed, centered and filled up, in the styles of the theme. -/
theorem render_eq (h : c.IsFaithful colour) (s : Session) (now : Int) :
    ∃ c' : Renderer, c'.IsFaithful colour ∧
      (c.render s now).1 =
        fill (center (card (c'.content s (.build s.prefs.theme colour) now).1 (innerWidth s)
            (.build s.prefs.theme colour)) (max s.size.columns 1) (max s.size.rows 1))
          (max s.size.columns 1) (max s.size.rows 1) (StyleSet.build s.prefs.theme colour).base
          (StyleSet.build s.prefs.theme colour).reset := by
  obtain ⟨hset, hstyles⟩ := h.styles s.prefs.theme
  refine ⟨_, hstyles, ?_⟩
  unfold render
  rw [← hset]

end Renderer
end TunnelBoard
