import TunnelBoard.Proofs.Display.Unstyled
import TunnelBoard.Proofs.Frame.Box
/-
  The size of a frame.

  A frame has as many rows as the terminal, always.  Each row has as many columns as the terminal,
  with one exception: without colour, a line of the message of a fatal error that ends inside an
  operating-system command swallows the border of the box and the spaces that fill up its row
  (`frame_exact_iff`).  Colour heals it, for a style ends every sequence.

  Which content makes a screen exact is known of boxes (`exact_of_coloured`, `exact_iff_of_blank`).
  So what is left is to find the torn lines of the content.  All screens but that of a fatal error are
  plain without colour, and so is everything on that screen but the message, whose lines are neither
  wrapped nor moved when they contain an escape character.
-/

namespace TunnelBoard

/-- Whether a line of a fatal error is on the screen, ends inside an operating-system command and leaves
    room in its row. -/
def Session.HasTornRow (s : Session) : Prop :=
  s.phase = .fatal ∧ ∃ report, s.fatal = some report ∧
    ∃ i line, (textLines report.message)[i]? = some line ∧ IsTorn line ∧
      i + 4 < max s.size.rows 1 ∧ visibleWidth line + 2 < max s.size.columns 1

/-- Of a list with plain lines at both ends, only the lines in the middle can be torn. -/
theorem forall_torn_iff {front middle back : List Text} (hfront : ArePlain front) (hback : ArePlain back)
    {P : Nat → Text → Prop} :
    (∀ i line, (front ++ middle ++ back)[i]? = some line → IsTorn line → P i line) ↔
      ∀ i line, middle[i]? = some line → IsTorn line → P (front.length + i) line := by
  constructor
  · intro h i line hline htorn
    obtain ⟨hlt, -⟩ := List.getElem?_eq_some_iff.1 hline
    refine h (front.length + i) line ?_ htorn
    rw [List.getElem?_append_left (by rw [List.length_append]; omega),
      List.getElem?_append_right (Nat.le_add_right _ _), Nat.add_sub_cancel_left]
    exact hline
  · -- a torn line is not plain, so it is one in the middle
    intro h i line hline htorn
    have hplain : ¬ IsPlain line := fun hp => not_isTorn_of_isPlain hp htorn
    rcases Nat.lt_or_ge i (front ++ middle).length with hlt | hge
    · rw [List.getElem?_append_left hlt] at hline
      rcases Nat.lt_or_ge i front.length with hlt' | hge'
      · rw [List.getElem?_append_left hlt'] at hline
        exact absurd (hfront line (List.mem_of_getElem? hline)) hplain
      · rw [List.getElem?_append_right hge'] at hline
        have hi := h (i - front.length) line hline htorn
        rwa [Nat.add_sub_cancel' hge'] at hi
    · rw [List.getElem?_append_right hge] at hline
      exact absurd (hback line (List.mem_of_getElem? hline)) hplain

/-- Wrapping does not matter to torn lines: a text with escape characters is not wrapped. -/
theorem forall_torn_wrap_iff {text : Text} {width : Nat} {P : Nat → Text → Prop} :
    (∀ i line, (wrap text width)[i]? = some line → IsTorn line → P i line) ↔
      ∀ i line, (textLines text)[i]? = some line → IsTorn line → P i line := by
  cases hescape : hasEscape text with
  | true => rw [wrap_of_hasEscape hescape]
  -- without escape characters no line is torn, wrapped or not
  | false =>
    have hplain : IsPlain text := by
      intro he
      have hcontains : hasEscape text = true := List.contains_iff_mem.2 he
      exact nomatch hescape.symm.trans hcontains
    constructor
    · intro _ i line hline htorn
      have hmem : line ∈ textLines text := List.mem_of_getElem? hline
      exact absurd htorn (not_isTorn_of_isPlain (hplain.of_subset (subset_of_mem_textLines hmem)))
    · intro _ i line hline htorn
      have hmem : line ∈ wrap text width := List.mem_of_getElem? hline
      exact absurd htorn (not_isTorn_of_isPlain (isPlain_of_mem_wrap hplain hmem))

namespace Content

/-- What the screen of a fatal error holds without colour. -/
theorem fatal_blank {s : Session} {report : FatalReport} (h : s.fatal = some report) (theme : Theme)
    (inner : Nat) :
    fatal s (.blank theme) inner =
      ["Fatal error".toList, momentText report.time, []] ++ wrap report.message inner ++
        [[], hintLine (.blank theme) .fatal inner] := by
  unfold fatal
  rw [h]
  simp only [StyleSet.paint_blank, paragraph_blank, List.cons_append, List.nil_append]

/-- Without a report, the screen of a fatal error is plain. -/
theorem arePlain_fatal {s : Session} (h : s.fatal = none) (theme : Theme) (inner : Nat) :
    ArePlain (fatal s (.blank theme) inner) := by
  unfold fatal
  rw [h]
  simp only [StyleSet.paint_blank]
  exact .cons (by decide) (.cons .nil (.cons (isPlain_hintLine theme inner .fatal) .nil))

end Content

namespace Renderer

variable {c : Renderer}

/-- Which lines of a content are torn. -/
theorem torn_content_iff (h : c.IsFaithful false) (s : Session) (now : Int) (theme : Theme) :
    (∀ i line, (c.content s (.blank theme) now).1[i]? = some line → i + 1 < max s.size.rows 1 →
        IsTorn line → max s.size.columns 1 ≤ visibleWidth line + 2) ↔ ¬ s.HasTornRow := by
  have hswap : ∀ lines : List Text,
      (∀ i line, lines[i]? = some line → i + 1 < max s.size.rows 1 → IsTorn line →
        max s.size.columns 1 ≤ visibleWidth line + 2) ↔
      ∀ i line, lines[i]? = some line → IsTorn line → i + 1 < max s.size.rows 1 →
        max s.size.columns 1 ≤ visibleWidth line + 2 :=
    fun lines => ⟨fun h i line hl ht hi => h i line hl hi ht, fun h i line hl hi ht => h i line hl ht hi⟩
  -- where all of the content is plain, no line is torn
  have hwhole : ArePlain (c.content s (.blank theme) now).1 → ¬ s.HasTornRow →
      ((∀ i line, (c.content s (.blank theme) now).1[i]? = some line → i + 1 < max s.size.rows 1 →
        IsTorn line → max s.size.columns 1 ≤ visibleWidth line + 2) ↔ ¬ s.HasTornRow) := by
    intro hplain hnot
    refine ⟨fun _ => hnot, fun _ i line hline _ htorn => ?_⟩
    exact absurd htorn (not_isTorn_of_isPlain (hplain line (List.mem_of_getElem? hline)))
  by_cases hphase : s.phase = .fatal
  · have hcontent : (c.content s (.blank theme) now).1 = Content.fatal s (.blank theme) (innerWidth s) := by
      unfold content
      rw [hphase]
    cases hfatal : s.fatal with
    | none =>
      refine hwhole ?_ ?_
      · rw [hcontent]
        exact Content.arePlain_fatal hfatal theme _
      · rintro ⟨-, report, hreport, -⟩
        exact nomatch hfatal.symm.trans hreport
    | some report =>
      -- above and below the message everything is plain
      have hfront : ArePlain ["Fatal error".toList, momentText report.time, []] :=
        .cons (by decide) (.cons (isPlain_momentText _) (.cons .nil .nil))
      have hback : ArePlain [[], Content.hintLine (.blank theme) .fatal (innerWidth s)] :=
        .cons .nil (.cons (Content.isPlain_hintLine theme _ .fatal) .nil)
      rw [hcontent, Content.fatal_blank hfatal, hswap, forall_torn_iff hfront hback]
      show (∀ i line, (wrap report.message (innerWidth s))[i]? = some line → IsTorn line →
        3 + i + 1 < max s.size.rows 1 → max s.size.columns 1 ≤ visibleWidth line + 2) ↔ _
      rw [forall_torn_wrap_iff (P := fun i line => 3 + i + 1 < max s.size.rows 1 →
        max s.size.columns 1 ≤ visibleWidth line + 2)]
      constructor
      · rintro hall ⟨-, report', hreport, i, line, hline, htorn, hi, hnarrow⟩
        cases hfatal.symm.trans hreport
        have hwide := hall i line hline htorn (by omega)
        omega
      · intro hnot i line hline htorn hi
        rcases Nat.lt_or_ge (visibleWidth line + 2) (max s.size.columns 1) with hnarrow | hwide
        · exact absurd ⟨hphase, report, hfatal, i, line, hline, htorn, by omega, hnarrow⟩ hnot
        · exact hwide
  · -- any other screen
    exact hwhole (h.arePlain_content theme now s hphase) fun hnarrow => hphase hnarrow.1

/-- **A frame has the size of the terminal**, in every session, with any history and at any time, unless
    there is no colour and the session has a torn row; then it has the right number of rows, and one
    that is too narrow. -/
theorem frame_exact_iff (colour : Bool) (history : List (Session × Int)) (s : Session) (now : Int) :
    ((after colour history).render s now).1.length = max s.size.rows 1 ∧
      ((∀ row ∈ ((after colour history).render s now).1, visibleWidth row = max s.size.columns 1) ↔
        ¬ (colour = false ∧ s.HasTornRow)) := by
  obtain ⟨c, hc, hframe⟩ := render_eq (isFaithful_after colour history) s now
  -- the smallest screen has one row of one column
  have hcolumns : max (max s.size.columns 1) 1 = max s.size.columns 1 := by omega
  have hrows : max (max s.size.rows 1) 1 = max s.size.rows 1 := by omega
  rw [hframe]
  constructor
  · rw [length_fill, hrows]
  · cases colour with
    | true =>
      have hexact := exact_of_coloured s.prefs.theme
        (c.content s (.coloured s.prefs.theme) now).1 (innerWidth s) (max s.size.columns 1)
        (max s.size.rows 1)
      rw [hcolumns] at hexact
      exact ⟨fun _ hbad => (nomatch hbad.1), fun _ => hexact⟩
    | false =>
      have hexact := exact_iff_of_blank s.prefs.theme
        (c.content s (.blank s.prefs.theme) now).1 (innerWidth s) (max s.size.columns 1)
        (max s.size.rows 1)
      rw [hcolumns, hrows, torn_content_iff hc] at hexact
      have hsame : (¬ (false = false ∧ s.HasTornRow)) ↔ ¬ s.HasTornRow :=
        ⟨fun h ht => h ⟨rfl, ht⟩, fun h ht => h ht.2⟩
      rw [hsame]
      exact hexact

/-- A session that has just been told of a fatal error, with a message that breaks off inside a
    command. -/
def torn : Session :=
  let begun := (Session.make (Config.standard none) .standard ⟨.ring, false⟩ ⟨40, 10⟩).init.1
  (begun.update (.showFatal ⟨"\x1b]x".toList, 0⟩)).1

/-- The row of that message is too narrow. -/
theorem frame_of_torn_message :
    torn.size = ⟨40, 10⟩ ∧
      ∃ row ∈ ((after false []).render torn 0).1, visibleWidth row ≠ max torn.size.columns 1 := by
  decide +kernel

end Renderer
end TunnelBoard
