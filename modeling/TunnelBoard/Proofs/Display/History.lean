import TunnelBoard.Proofs.Display.Memory
import TunnelBoard.Proofs.Style.TabStrip
/-
  Frames without memory.

  A renderer remembers style sets by theme, strips of tabs by theme, active tab and width, and flat
  lines by width.  The labels and the colour mode are in none of these keys, and need not be: they are
  those of the renderer for as long as it lives (`Renderer.IsFaithful`).  So any two renderers of one
  colour mode that remember only what is right draw the same frame, and one of them may be a fresh
  one.

  That is how history is got rid of: it is not followed from frame to frame.  It is enough that every
  frame leaves a renderer faithful, and that two faithful renderers, whatever they remember, agree on
  the next frame.
-/

namespace TunnelBoard
namespace Renderer

variable {colour : Bool} {c c' : Renderer}

/-! ## Two renderers of one mode

  Each part of a frame, drawn by two renderers that remember only what is right.  What the two remember
  may differ, before as well as afterwards. -/

namespace IsFaithful

/-- A graph of samples is drawn anew each time.  Only the line that stands for no samples is
    remembered. -/
theorem graph_eq (h : c.IsFaithful colour) (h' : c'.IsFaithful colour) (samples : Samples) (width : Nat) :
    (c.graph samples width).1 = (c'.graph samples width).1 := by
  unfold Renderer.graph
  split
  · exact (Memo.get_fst h.flatLines width).trans (Memo.get_fst h'.flatLines width).symm
  · rfl

variable (r : Monitor) (s : Session) (styles : StyleSet) (theme : Theme) (inner : Nat) (now : Int)

/-- The screen of the data plane, with its two graphs. -/
theorem dataplane_eq (h : c.IsFaithful colour) (h' : c'.IsFaithful colour) :
    (c.dataplane r styles inner now).1 = (c'.dataplane r styles inner now).1 := by
  unfold Renderer.dataplane
  dsimp only
  split
  · -- the second graph is drawn by renderers that may have learned from the first
    have hrx := h.graph_eq h' r.rx (Content.graphWidth inner)
    have hafter := (h.graph r.rx (Content.graphWidth inner)).2
    have hafter' := (h'.graph r.rx (Content.graphWidth inner)).2
    have htx := hafter.graph_eq hafter' r.tx (Content.graphWidth inner)
    dsimp only
    rw [hrx, htx]
  · rfl

/-- Each of the three screens, and the hints that go with it. -/
theorem screen_eq (h : c.IsFaithful colour) (h' : c'.IsFaithful colour) :
    (c.screen r styles inner now).1 = (c'.screen r styles inner now).1 ∧
      (c.screen r styles inner now).2.1 = (c'.screen r styles inner now).2.1 := by
  unfold Renderer.screen
  split
  · exact ⟨h.dataplane_eq r styles inner now h', rfl⟩
  · exact ⟨rfl, rfl⟩
  · exact ⟨rfl, rfl⟩

/-- The question, or the tabs with a screen below them. -/
theorem monitor_eq (h : c.IsFaithful colour) (h' : c'.IsFaithful colour) :
    (c.monitor r (.build theme colour) inner now).1 =
      (c'.monitor r (.build theme colour) inner now).1 := by
  unfold Renderer.monitor
  split
  · rfl
  · obtain ⟨hstrip, htabs⟩ := h.strip theme r.screen.index inner
    obtain ⟨hstrip', htabs'⟩ := h'.strip theme r.screen.index inner
    obtain ⟨hlines, hhints⟩ := htabs.screen_eq r (.build theme colour) inner now htabs'
    dsimp only
    rw [hstrip, hstrip', hlines, hhints]

/-- All that a card shows. -/
theorem content_eq (h : c.IsFaithful colour) (h' : c'.IsFaithful colour) :
    (c.content s (.build theme colour) now).1 = (c'.content s (.build theme colour) now).1 := by
  unfold Renderer.content
  dsimp only
  split
  · rfl
  · rfl
  · exact h.monitor_eq _ theme (innerWidth s) now h'
  · rfl
  · rfl

/-- Two renderers of one mode draw the same frame. -/
theorem render_eq (h : c.IsFaithful colour) (h' : c'.IsFaithful colour) :
    (c.render s now).1 = (c'.render s now).1 := by
  -- the styles come first, then what is drawn with them
  obtain ⟨hset, hstyles⟩ := h.styles s.prefs.theme
  obtain ⟨hset', hstyles'⟩ := h'.styles s.prefs.theme
  have hcontent := hstyles.content_eq s s.prefs.theme now hstyles'
  unfold Renderer.render
  dsimp only
  rw [hset, hset', hcontent]

end IsFaithful

/-! ## Any history -/

/-- **Rendering does not depend on history**: after any frames a renderer draws what a fresh one of its
    colour mode draws.  And a strip of tabs that is not remembered has exactly the width that was asked
    for, whatever its labels, as long as none of them breaks off in the middle of a sequence. -/
theorem frame_without_history (colour : Bool) :
    (∀ (history : List (Session × Int)) (s : Session) (now : Int),
      ((after colour history).render s now).1 = ((empty colour).render s now).1) ∧
    ∀ (labels : List Text) (theme : Theme) (active width : Nat),
      (∀ label ∈ labels, Complete label) →
        visibleWidth (TabStrip.render labels (.build theme colour) active width) = width := by
  constructor
  · intro history s now
    exact (isFaithful_after colour history).render_eq s now (isFaithful_empty colour)
  · intro labels theme active width hcomplete
    exact TabStrip.visibleWidth_render (StyleSet.isUnseen_build theme colour) hcomplete active width

/-- Three labels, one of them with a style of its own, without room for the first one alone, whose four
    characters take twelve bytes. -/
theorem frame_without_history_in_little_room :
    (∀ label ∈ ["日本語版".toList, "\x1b[1mÜ\x1b[0m".toList, []], Complete label) ∧
      visibleWidth (TabStrip.render ["日本語版".toList, "\x1b[1mÜ\x1b[0m".toList, []]
        (.build .forest true) 0 5) = 5 ∧
      visibleWidth (TabStrip.render ["日本語版".toList, "\x1b[1mÜ\x1b[0m".toList, []]
        (.build .forest true) 7 5) = 5 := by
  have hcomplete : ∀ label ∈ ["日本語版".toList, "\x1b[1mÜ\x1b[0m".toList, []], Complete label := by
    decide
  exact ⟨hcomplete, (frame_without_history true).2 _ .forest 0 5 hcomplete,
    (frame_without_history true).2 _ .forest 7 5 hcomplete⟩

end Renderer
end TunnelBoard
