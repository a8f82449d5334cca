import TunnelBoard.Proofs.Display.Memory
import TunnelBoard.Proofs.Text.Fitting
import TunnelBoard.Proofs.Text.Wrapping
/-
  Content without colour.

  Without colour nothing is painted (`paint_blank`), so the only escape characters on a screen would
  be those of texts that come from outside.  There are two of them: the lines of the log, of which
  only what is shown is kept, and the message of a fatal error, which is kept as it is.  All other
  content is plain (`arePlain_content`): it is put together from fixed texts, which are looked at,
  from numbers, and from glyphs of graphs, whose code points are far above that of the escape
  character.

  The lemmas follow the content from the inside to the outside: numbers and how they are printed,
  graphs, the tabs, the rows of each screen, and at last the phases of a session.  Each of them is
  about one function of the content and uses those of the functions that it calls.  Graphs and tabs
  are taken from a cache where it has them; what it has is what would be made (`IsFaithful`), so
  nothing else can come from there.
-/

namespace TunnelBoard

/-! ## Numbers -/

/-- A number with decimal places is digits and a point. -/
theorem isPlain_fixed (x : Double) (places : Nat) : IsPlain (x.fixed places) := by
  unfold Double.fixed
  dsimp only
  split
  · exact isPlain_natText _
  · exact (isPlain_natText _).append (.cons (by decide) (isPlain_natTextPadded _ _))

/-- An amount in the unit that fits it is a number and a symbol. -/
theorem isPlain_sizeText {base : Nat} {last : Text} (hlast : IsPlain last) {symbols : List Text}
    (h : ∀ symbol ∈ symbols, IsPlain symbol) (size : Double) :
    IsPlain (sizeText base last size symbols) := by
  induction symbols generalizing size with
  | nil => exact (isPlain_fixed _ _).append (.cons (by decide) hlast)
  | cons symbol rest ih =>
    unfold sizeText
    split
    · exact (isPlain_fixed _ _).append (.cons (by decide) (h symbol List.mem_cons_self))
    · exact ih (fun s hs => h s (List.mem_cons_of_mem _ hs)) _

/-- An amount of bytes. -/
theorem isPlain_bytesText (bytes : Nat) (unit : StatsUnit) : IsPlain (bytesText bytes unit) := by
  have hsymbols : ∀ symbol ∈ unit.symbols, IsPlain symbol := by
    cases unit with
    | decimal | binary => decide
  have hlast : IsPlain (unit.symbols.getLast?.getD []) := by
    cases unit with
    | decimal | binary => decide
  unfold bytesText
  split
  · exact (isPlain_natText _).append (by decide)
  · exact isPlain_sizeText hlast hsymbols _

theorem isPlain_rateText (rate : Nat) (unit : StatsUnit) : IsPlain (rateText rate unit) :=
  (isPlain_bytesText rate unit).append (by decide)

/-- A duration is two numbers and their units, or one. -/
theorem isPlain_durationText (seconds : Nat) : IsPlain (durationText seconds) := by
  -- the larger number as it is and the smaller one in two places
  have htwo : ∀ m n : Nat, ∀ between after : Text, IsPlain between → IsPlain after →
      IsPlain (natText m ++ between ++ natTextPadded 2 n ++ after) := by
    intro m n between after hbetween hafter
    exact (((isPlain_natText m).append hbetween).append (isPlain_natTextPadded 2 n)).append hafter
  unfold durationText
  split
  · exact (isPlain_natText _).append (by decide)
  · split
    · exact htwo _ _ _ _ (by decide) (by decide)
    · split
      · exact htwo _ _ _ _ (by decide) (by decide)
      · exact htwo _ _ _ _ (by decide) (by decide)

/-- A year may have a sign. -/
theorem isPlain_yearText (y : Int) : IsPlain (yearText y) := by
  unfold yearText
  split
  · exact .cons (by decide) (isPlain_natTextPadded _ _)
  · split
    · exact .cons (by decide) (isPlain_natText _)
    · exact isPlain_natTextPadded _ _

/-- A moment is six numbers with signs between them. -/
theorem isPlain_momentText (seconds : Int) : IsPlain (momentText seconds) := by
  have hpart : ∀ (c : Char) (n : Nat), c ≠ esc → IsPlain (c :: natTextPadded 2 n) := fun c n hc =>
    .cons hc (isPlain_natTextPadded 2 n)
  unfold momentText
  dsimp only
  refine IsPlain.append (IsPlain.append (IsPlain.append (IsPlain.append (IsPlain.append
    (IsPlain.append (isPlain_yearText _) ?_) ?_) ?_) ?_) ?_) (by decide)
  · exact hpart _ _ (by decide)
  · exact hpart _ _ (by decide)
  · exact hpart _ _ (by decide)
  · exact hpart _ _ (by decide)
  · exact hpart _ _ (by decide)

/-! ## Graphs -/

theorem isPlain_baseline (width : Nat) : IsPlain (baseline width) := .replicate width (by decide)

/-- A glyph is no escape character, for its number is too large. -/
theorem glyph_ne_esc (bits : UInt8) : Sparkline.glyph bits ≠ esc := by
  have hlarge : ∀ n : Nat, 0x2800 ≤ n → Char.ofNat n ≠ esc := by
    intro n hn he
    have hval : (Char.ofNat n).toNat = 27 := congrArg Char.toNat he
    by_cases hvalid : n.isValidChar
    · rw [Char.ofNat, dif_pos hvalid] at hval
      have hsame : (Char.ofNatAux n hvalid).toNat = n := rfl
      omega
    · -- a number that is no code point stands for the character zero
      rw [Char.ofNat, dif_neg hvalid] at hval
      exact absurd hval (by decide)
  unfold Sparkline.glyph
  exact hlarge _ (by omega)

/-- A graph is glyphs, with a baseline where there are no samples. -/
theorem isPlain_sparkline (slots : List Nat) (count cursor width : Nat) :
    IsPlain (sparkline slots count cursor width) := by
  unfold sparkline
  dsimp only
  split
  · exact isPlain_baseline width
  · refine (isPlain_baseline _).append fun he => ?_
    obtain ⟨bits, -, hbits⟩ := List.mem_map.1 he
    exact glyph_ne_esc bits hbits

/-! ## Styles -/

namespace StyleSet

variable (theme : Theme)

/-- Without colour, painting changes nothing. -/
@[simp] theorem paint_blank (role : Role) (text : Text) : (blank theme).paint role text = text := by
  cases role with
  | text | muted | brand | accent | active | frame => rfl

theorem isPlain_activeRow {text : Text} (h : IsPlain text) (width : Nat) :
    IsPlain ((blank theme).activeRow text width) := by
  unfold activeRow
  rw [paint_blank]
  exact isPlain_fit h width

end StyleSet

/-! ## Tabs -/

theorem isPlain_tabCell {label : Text} (h : IsPlain label) : IsPlain (tabCell label) :=
  IsPlain.append (.cons (by decide) h) (by decide)

/-- The tabs are labels and bars. -/
theorem isPlain_strip_of_tabs (theme : Theme) (active width : Nat) :
    IsPlain (TabStrip.render Renderer.labels (.blank theme) active width) := by
  have hlabels : ∀ label ∈ Renderer.labels, IsPlain label := by decide
  -- all of the tabs, whichever is the active one
  have hcells : ∀ (labels : List Text) (index : Nat), (∀ label ∈ labels, IsPlain label) →
      ∀ cell ∈ TabStrip.cells (.blank theme) active index labels, IsPlain cell := by
    intro labels
    induction labels with
    | nil => exact fun _ _ cell hcell => absurd hcell List.not_mem_nil
    | cons label rest ih =>
      intro index h cell hcell
      unfold TabStrip.cells at hcell
      rw [StyleSet.paint_blank] at hcell
      rcases List.mem_cons.1 hcell with rfl | hcell
      · exact isPlain_tabCell (h label List.mem_cons_self)
      · exact ih _ (fun l hl => h l (List.mem_cons_of_mem _ hl)) cell hcell
  unfold TabStrip.render
  split
  · refine isPlain_padRight (IsPlain.joinWith ?_ (hcells _ 0 hlabels)) width
    rw [StyleSet.paint_blank]
    decide
  · unfold TabStrip.narrow
    refine IsPlain.append (StyleSet.isPlain_activeRow theme (isPlain_tabCell ?_) _) (isPlain_spaces _)
    cases hlabel : Renderer.labels[active]? with
    | none =>
      rw [List.getD_eq_getElem?_getD, hlabel]
      exact .nil
    | some label =>
      rw [List.getD_eq_getElem?_getD, hlabel]
      exact hlabels label (List.mem_of_getElem? hlabel)

/-! ## Content

All content but the report of a failure is put together from fixed texts, numbers and lines without
their sequences.  Without colour, all of that is plain. -/

/-- Lines without escape characters. -/
def ArePlain (lines : List Text) : Prop := ∀ line ∈ lines, IsPlain line

namespace ArePlain

variable {ls ms : List Text}

theorem nil : ArePlain [] := fun _ h => absurd h List.not_mem_nil

theorem cons {l : Text} (hl : IsPlain l) (h : ArePlain ls) : ArePlain (l :: ls) := by
  intro line hline
  rcases List.mem_cons.1 hline with rfl | hline
  · exact hl
  · exact h line hline

theorem append (hls : ArePlain ls) (hms : ArePlain ms) : ArePlain (ls ++ ms) := by
  intro line hline
  rcases List.mem_append.1 hline with hline | hline
  · exact hls line hline
  · exact hms line hline

end ArePlain

theorem isPlain_modeTitle (mode : Mode) : IsPlain mode.title := by
  cases mode with
  | tun | proxy => decide

theorem isPlain_labelRow {label value : Text} (hlabel : IsPlain label) (hvalue : IsPlain value)
    (width : Nat) : IsPlain (labelRow label width value) :=
  (isPlain_padRight hlabel width).append hvalue

namespace Content

variable (theme : Theme) (inner : Nat)

/-- The title of a card. -/
theorem isPlain_titleLine {subtitle : Text} (h : IsPlain subtitle) :
    IsPlain (titleLine (.blank theme) subtitle) := by
  unfold titleLine
  rw [StyleSet.paint_blank, StyleSet.paint_blank]
  exact IsPlain.append (by decide) h

/-- The hints on keys are fixed for each context. -/
theorem isPlain_hintLine (context : HintContext) : IsPlain (hintLine (.blank theme) context inner) := by
  have hline : IsPlain context.line := by
    cases context with
    | configurator | waiting | dataplane | settings | logs | confirm | fatal => decide
  unfold hintLine
  rw [StyleSet.paint_blank]
  exact isPlain_truncate hline inner

theorem arePlain_footer (p : Preferences) (context : HintContext) :
    ArePlain (footer p context (.blank theme) inner) := by
  unfold footer
  split
  · exact .cons .nil (.cons (isPlain_hintLine theme inner context) .nil)
  · exact .nil

/-- A paragraph is the wrapped text. -/
theorem paragraph_blank (text : Text) (role : Role) :
    paragraph text role (.blank theme) inner = wrap text inner := by
  have hid : (StyleSet.blank theme).paint role = id := funext (StyleSet.paint_blank theme role)
  unfold paragraph
  rw [hid, List.map_id]

/-- A paragraph is plain if its text is. -/
theorem arePlain_paragraph {text : Text} (h : IsPlain text) (role : Role) :
    ArePlain (paragraph text role (.blank theme) inner) := by
  rw [paragraph_blank]
  exact fun line hline => isPlain_of_mem_wrap h hline

/-- The choice of a mode. -/
theorem arePlain_configuring (s : Session) : ArePlain (configuring s (.blank theme) inner) := by
  have htitle : ArePlain [titleLine (.blank theme) "select tunnel mode".toList, []] :=
    .cons (isPlain_titleLine theme (by decide)) (.cons .nil .nil)
  unfold configuring
  dsimp only
  -- without a picker there is only the title
  split
  · exact htitle
  · rename_i picker _
    have hrows : ArePlain (modeRows picker (.blank theme) inner) := by
      intro line hline
      obtain ⟨m, -, rfl⟩ := List.mem_map.1 hline
      split
      · exact StyleSet.isPlain_activeRow theme (IsPlain.append (by decide) (isPlain_modeTitle _)) inner
      · rw [StyleSet.paint_blank]
        exact IsPlain.append (by decide) (isPlain_modeTitle _)
    have hdescription : IsPlain picker.current.description := by
      cases picker.current with
      | tun | proxy => decide +kernel
    exact (((htitle.append hrows).append (.cons .nil .nil)).append
      (arePlain_paragraph theme inner hdescription .muted)).append
        (arePlain_footer theme inner s.prefs .configurator)

/-- The notice that a data plane is being set up. -/
theorem arePlain_waiting (s : Session) : ArePlain (waiting s (.blank theme) inner) := by
  unfold waiting
  refine ArePlain.append (ArePlain.append (ArePlain.append ?_ ?_) ?_)
    (arePlain_footer theme inner s.prefs .waiting)
  · exact .cons (isPlain_titleLine theme (by decide)) (.cons .nil .nil)
  · refine arePlain_paragraph theme inner (IsPlain.append (IsPlain.append (by decide) ?_) (by decide)) .text
    split
    · exact isPlain_modeTitle _
    · decide
  · exact arePlain_paragraph theme inner (by decide) .muted

/-- A rate with a total behind it. -/
theorem isPlain_trafficValue (rate total : Nat) (unit : StatsUnit) :
    IsPlain (trafficValue (.blank theme) rate total unit) := by
  unfold trafficValue
  rw [StyleSet.paint_blank, StyleSet.paint_blank]
  exact IsPlain.append (IsPlain.append (isPlain_rateText rate unit) (by decide))
    (IsPlain.append (by decide) (isPlain_bytesText total unit))

/-- Two rows of rates, if they are to be shown. -/
theorem arePlain_statsRows (r : Monitor) : ArePlain (statsRows r (.blank theme)) := by
  unfold statsRows
  split
  · refine .cons .nil (.cons ?_ (.cons ?_ .nil))
    · exact isPlain_labelRow (by decide) (isPlain_trafficValue theme _ _ _) labelWidth
    · exact isPlain_labelRow (by decide) (isPlain_trafficValue theme _ _ _) labelWidth
  · exact .nil

/-- Two rows of graphs. -/
theorem arePlain_graphRows {rx tx : Text} (hrx : IsPlain rx) (htx : IsPlain tx) :
    ArePlain (graphRows rx tx (.blank theme)) := by
  unfold graphRows
  rw [StyleSet.paint_blank, StyleSet.paint_blank]
  refine .cons .nil (.cons ?_ (.cons ?_ .nil))
  · exact isPlain_labelRow (by decide) hrx labelWidth
  · exact isPlain_labelRow (by decide) htx labelWidth

/-- The mode, the state of the connection and its duration. -/
theorem arePlain_statusRows (r : Monitor) (now : Int) :
    ArePlain (statusRows r (.blank theme) now) := by
  unfold statusRows
  simp only [StyleSet.paint_blank]
  refine .cons ?_ (.cons ?_ (.cons ?_ .nil))
  · exact isPlain_labelRow (by decide) (isPlain_modeTitle r.mode) labelWidth
  · refine isPlain_labelRow (by decide) ?_ labelWidth
    split
    · decide
    · decide
  · exact isPlain_labelRow (by decide) (isPlain_durationText _) labelWidth

/-- What a setting is set to is shown by a word. -/
theorem isPlain_settingValue (p : Preferences) (setting : SettingsRow) :
    IsPlain (settingValue p setting) := by
  have honOff : ∀ b, IsPlain (onOff b) := by
    intro b
    cases b with
    | true | false => decide
  cases setting with
  | theme =>
    have hname : IsPlain p.theme.name := by
      cases p.theme with
      | midnight | daylight | solarized | forest | mono => decide
    exact IsPlain.append (IsPlain.append (by decide) hname) (by decide)
  | units =>
    unfold settingValue
    dsimp only
    split
    · decide
    · decide
  | statsPanel | trafficGraph | footer => exact honOff _

/-- The settings, of which the selected one is highlighted. -/
theorem arePlain_settings (p : Preferences) (selected : SettingsRow) :
    ArePlain (settings p selected (.blank theme) inner) := by
  intro line hline
  obtain ⟨setting, -, rfl⟩ := List.mem_map.1 hline
  have hlabel : IsPlain setting.label := by
    cases setting with
    | theme | units | statsPanel | trafficGraph | footer => decide
  have hvalue : IsPlain (labelRow setting.label settingsLabelWidth (settingValue p setting)) :=
    isPlain_labelRow hlabel (isPlain_settingValue p setting) settingsLabelWidth
  dsimp only
  split
  · exact StyleSet.isPlain_activeRow theme (IsPlain.append (by decide) hvalue) inner
  · rw [StyleSet.paint_blank]
    exact IsPlain.append (by decide) hvalue

/-- Of the lines of the log, only what is shown is kept. -/
theorem arePlain_logs (r : Monitor) : ArePlain (logs r (.blank theme) inner) := by
  -- the status tells which lines are shown, if there are any
  have hstatus : IsPlain (windowStatus r) := by
    have hstate : IsPlain (if r.logFollow then "following" else "paused").toList := by
      cases r.logFollow with
      | true | false => decide
    unfold windowStatus
    dsimp only
    split
    · exact hstate.append (by decide)
    · refine IsPlain.append (IsPlain.append (IsPlain.append (IsPlain.append (IsPlain.append hstate ?_)
        (isPlain_natText _)) (.cons ?_ (isPlain_natText _))) ?_) (isPlain_natText _)
      · decide
      · decide
      · decide
  -- a line may hold anything, but its sequences are taken out before it is cut
  have hshown : ArePlain ((window r).map fun l =>
      (StyleSet.blank theme).paint .text (truncate (TunnelBoard.strip l) inner)) := by
    intro line hline
    obtain ⟨l, -, rfl⟩ := List.mem_map.1 hline
    rw [StyleSet.paint_blank]
    exact isPlain_truncate (isPlain_strip l) inner
  unfold logs
  dsimp only
  refine ArePlain.append (ArePlain.append hshown fun line hline => ?_) (.cons ?_ .nil)
  · rw [List.eq_of_mem_replicate hline]
    exact .nil
  · rw [StyleSet.paint_blank]
    exact isPlain_truncate hstatus inner

/-- The question whether to stop, with its two answers. -/
theorem arePlain_confirm (r : Monitor) (choice : ConfirmChoice) :
    ArePlain (confirm r choice (.blank theme) inner) := by
  have hbutton : ∀ selected choice : ConfirmChoice, IsPlain (button (.blank theme) selected choice) := by
    intro selected choice
    unfold button
    dsimp only
    simp only [StyleSet.paint_blank]
    have hlabel : IsPlain ("[ ".toList ++ choice.label ++ " ]".toList) := by
      cases choice with
      | goOn | stop => decide
    split
    · exact hlabel
    · exact hlabel
  unfold confirm
  refine ArePlain.append (ArePlain.append (ArePlain.append ?_ ?_) ?_)
    (arePlain_footer theme inner r.prefs .confirm)
  · exact .cons (isPlain_titleLine theme (isPlain_modeTitle r.mode)) (.cons .nil .nil)
  · exact arePlain_paragraph theme inner (by decide) .text
  · exact .cons .nil (.cons (((hbutton choice .goOn).append (by decide)).append (hbutton choice .stop)) .nil)

end Content

/-! ## The whole content -/

namespace Renderer.IsFaithful

variable {c : Renderer} (theme : Theme) (inner : Nat) (now : Int)

/-- A graph from the cache is a baseline or the graph of the samples at hand. -/
theorem isPlain_graph (h : c.IsFaithful false) (samples : Samples) (width : Nat) :
    IsPlain (c.graph samples width).1 := by
  rcases (h.graph samples width).1 with heq | heq
  · rw [heq]
    exact isPlain_baseline width
  · rw [heq]
    exact isPlain_sparkline _ _ _ _

/-- The screen with the state of the data plane. -/
theorem arePlain_dataplane (h : c.IsFaithful false) (r : Monitor) :
    ArePlain (c.dataplane r (.blank theme) inner now).1 := by
  have habove : ArePlain (Content.statusRows r (.blank theme) now ++ Content.statsRows r (.blank theme)) :=
    (Content.arePlain_statusRows theme r now).append (Content.arePlain_statsRows theme r)
  unfold Renderer.dataplane
  dsimp only
  split
  · -- the second graph finds the cache as the first one left it
    have hrx := h.isPlain_graph r.rx (Content.graphWidth inner)
    have hnext := (h.graph r.rx (Content.graphWidth inner)).2
    have htx := hnext.isPlain_graph r.tx (Content.graphWidth inner)
    exact habove.append (Content.arePlain_graphRows theme hrx htx)
  · exact habove

/-- Each of the three screens. -/
theorem arePlain_screen (h : c.IsFaithful false) (r : Monitor) :
    ArePlain (c.screen r (.blank theme) inner now).1 := by
  unfold Renderer.screen
  split
  · exact h.arePlain_dataplane theme inner now r
  · exact Content.arePlain_settings theme inner r.prefs r.row
  · exact Content.arePlain_logs theme inner r

/-- The question, or the tabs with a screen below them. -/
theorem arePlain_monitor (h : c.IsFaithful false) (r : Monitor) :
    ArePlain (c.monitor r (.blank theme) inner now).1 := by
  unfold Renderer.monitor
  split
  · exact Content.arePlain_confirm theme inner r _
  · obtain ⟨hstrip, hnext⟩ := h.strip theme r.screen.index inner
    have htabs : IsPlain (c.tabs.get (.blank theme) r.screen.index inner).1 := by
      have hsame : (c.tabs.get (.blank theme) r.screen.index inner).1 = _ := hstrip
      rw [hsame]
      exact isPlain_strip_of_tabs theme r.screen.index inner
    exact (ArePlain.append (.cons htabs (.cons .nil (hnext.arePlain_screen theme inner now r)))
      (Content.arePlain_footer theme inner r.prefs _))

/-- **Without colour, content is plain** in every phase but the last. -/
theorem arePlain_content (h : c.IsFaithful false) (s : Session) (hphase : s.phase ≠ .fatal) :
    ArePlain (c.content s (.blank theme) now).1 := by
  unfold Renderer.content
  dsimp only
  split
  · exact Content.arePlain_configuring theme _ s
  · exact Content.arePlain_waiting theme _ s
  · exact h.arePlain_monitor theme _ now _
  · exact Content.arePlain_waiting theme _ s
  · rename_i hfatal
    exact absurd hfatal hphase

end Renderer.IsFaithful
end TunnelBoard
