import TunnelBoard.Proofs.Display.Memory
import TunnelBoard.Proofs.Display.Window
import TunnelBoard.Proofs.Frame.Screen
import TunnelBoard.Proofs.Session.Change
/-
  The logs screen on a terminal.

  The monitor scrolls by the number of rows it has for the log, and reckons them from its own copies
  of the size and the preferences; the screen is drawn from those of the session.  The two agree in
  every state that messages lead to (`onShow_after`), the last one included, for the end of a session
  leaves alone what its monitor shows.  So the rows of the log are just those that the rest of the
  screen leaves free: the box is as high as the terminal, and nothing of it is lost (`logs_frame`).

  That the two agree goes by induction on the messages, with more than the standing order, which ends
  with the session.  The message that ends it takes the monitor away or leaves by the ordinary way
  (`Change.ends`), and then only its waits are over.

  The status line tells the place of the window if there are lines, and as much of it as fits in the
  box (`status_without_numbers`).
-/

namespace TunnelBoard

/-! ## What a monitor is drawn from -/

/-- The window of the monitor lies within the log, its question is open on the data plane's screen only,
    and its copies of size and preferences are those of the session. -/
structure Monitor.OnShow (r : Monitor) (s : Session) : Prop where
  window : r.InWindow
  confirm : r.confirm.isSome → r.screen = .dataplane
  prefs : r.prefs = s.prefs
  size : r.size = s.size

namespace Session

variable {s : Session}

/-- While the session goes on, its order says all that is needed to draw the monitor. -/
theorem Standing.onShow (h : s.Standing) {r : Monitor} (hr : s.monitor = some r) : r.OnShow s := by
  obtain ⟨hc, hi⟩ := h.monitor r hr
  exact ⟨hc.window, hc.placed.confirm, hi.prefs, hi.size⟩

/-- A message ends a session without a monitor, or the operator or the owner leaves. -/
theorem Change.ends {m : Message} {s' : Session} {es : List Effect} (h : Change s m s' es)
    (ht : s.terminated = false) (hend : s'.terminated = true) :
    s'.monitor = none ∨ s' = s.exit.1 := by
  -- all but the last two go on
  have hlive : s'.terminated ≠ s.terminated := by
    rw [ht, hend]
    decide
  cases h with
  | shown kept => exact absurd kept.terminated hlive
  | picked | refreshed | fetched | switched | activated => exact absurd rfl hlive
  | disconnected =>
    refine absurd ?_ hlive
    unfold disconnect
    rw [stopMonitor_eq]
  | reconfigured =>
    refine absurd ?_ hlive
    rw [stopMonitor_eq]
  | fatalShown =>
    refine absurd ?_ hlive
    unfold showFatal
    rw [stopMonitor_eq]
  | broke =>
    rw [stopMonitor_eq]
    exact Or.inl rfl
  | exited => exact Or.inr rfl

/-- In every state that messages lead to, the monitor is drawn from what the session knows. -/
theorem onShow_after (config : Config) (prefs : Preferences) (logs : LogSource) (size : TerminalSize)
    (ms : List Message) {r : Monitor} (hr : ((begun config prefs logs size).after ms).monitor = some r) :
    r.OnShow ((begun config prefs logs size).after ms) := by
  -- beside the order of a session that goes on, what is needed of one that is over
  let Shown : Session → Prop := fun s =>
    (s.terminated = false → s.Standing) ∧ ∀ r, s.monitor = some r → r.OnShow s
  have hbegun : Shown (begun config prefs logs size) := by
    refine ⟨standing_begun, fun r hr => ?_⟩
    rw [(begun_frame config prefs logs size).1] at hr
    exact nomatch hr
  refine (after_induction (P := Shown) (fun s m hs => ?_) hbegun ms).2 r hr
  cases ht : s.terminated with
  | true =>
    rw [update_of_terminated ht]
    exact hs
  | false =>
    have hstanding := hs.1 ht
    cases hend : (s.update m).1.terminated with
    | false =>
      have hnext := hstanding.update m hend
      exact ⟨fun _ => hnext, fun r hr => hnext.onShow hr⟩
    | true =>
      refine ⟨fun hlive => absurd (hlive.symm.trans hend) (by decide), fun r hr => ?_⟩
      rcases (update_change hstanding ht m).ends ht hend with hnone | hexit
      · rw [hnone] at hr
        exact nomatch hr
      · -- the waits of the monitor are over, and nothing else of it
        rw [hexit] at hr ⊢
        obtain ⟨q, hq, rfl⟩ := Option.map_eq_some_iff.1 hr
        have hshow := hs.2 q hq
        exact ⟨⟨hshow.window.scroll_le, hshow.window.follow⟩, hshow.confirm, hshow.prefs, hshow.size⟩

end Session

/-! ## The content of the screen

The content is known row by row: the tabs, a blank row, the window of the log, the status line and the
hints.  For the height of the box it is enough to count them. -/

namespace Content

variable {r : Monitor}

/-- The rows of the log, and what the status line says. -/
theorem logs_of_inWindow (h : r.InWindow) (styles : StyleSet) (inner : Nat) :
    let count := min r.viewportRows r.logLines.length
    logs r styles inner =
      ((r.logLines.drop (windowStart r)).take count).map (shownLine styles inner) ++
        List.replicate (r.viewportRows - count) [] ++
          [styles.paint .muted (truncate (windowStatus r) inner)] := by
  intro count
  rw [logs_eq, length_window h.scroll_le, window_eq h.scroll_le]

/-- The status line, with its numbers written out. -/
theorem windowStatus_eq (r : Monitor) :
    windowStatus r = (if r.logFollow then "following" else "paused").toList ++
      if r.logLines.length = 0 then " · no log lines yet".toList
      else " · lines ".toList ++ natText (windowStart r + 1) ++ '-' :: natText (windowEnd r) ++
        " of ".toList ++ natText r.logLines.length := by
  unfold windowStatus
  cases r.logLines with
  | nil => rfl
  | cons l ls =>
    have hsome : (l :: ls).length ≠ 0 := Nat.succ_ne_zero _
    rw [if_neg hsome, List.isEmpty_cons, if_neg (by decide)]
    simp only [List.append_assoc, List.cons_append]

/-- At its highest, the window starts at the first line. -/
theorem windowStart_of_top (h : r.logScroll = r.maxScroll) : windowStart r = 0 := by
  unfold windowStart windowEnd
  rw [h, Monitor.maxScroll]
  omega

/-- At its highest, the window shows the first line first. -/
theorem head?_window_of_top (h : r.logScroll = r.maxScroll) :
    (window r).head? = r.logLines.head? := by
  have hpos := viewportRows_pos r
  rw [window_eq (Nat.le_of_eq h), windowStart_of_top h, List.drop_zero, List.head?_take]
  split
  · rename_i hnone
    have hnil : r.logLines = [] := List.eq_nil_of_length_eq_zero (by omega)
    rw [hnil]
    rfl
  · rfl

end Content

namespace Renderer

variable {c : Renderer} {colour : Bool}

/-- The tabs, a blank line, the log and the hints. -/
theorem content_logs (h : c.IsFaithful colour) {s : Session} {r : Monitor} (hphase : s.phase = .runtime)
    (hr : s.monitor = some r) (hscreen : r.screen = .logs) (hconfirm : r.confirm = none) (theme : Theme)
    (now : Int) :
    (c.content s (.build theme colour) now).1 =
      TabStrip.render labels (.build theme colour) Screen.logs.index (innerWidth s) :: [] ::
        Content.logs r (.build theme colour) (innerWidth s) ++
          Content.footer r.prefs .logs (.build theme colour) (innerWidth s) := by
  have htabs := (h.strip theme Screen.logs.index (innerWidth s)).1
  unfold content
  simp only [hphase, hr]
  unfold monitor
  simp only [hconfirm, hscreen, htabs]
  unfold screen
  simp only [hscreen]

/-- The box of the logs screen is as high as a terminal that has room for its smallest one. -/
theorem length_log_card {s : Session} {r : Monitor} (h : r.OnShow s)
    (hroom : (if s.prefs.showFooter then 8 else 6) ≤ s.size.rows) (tabs : Text) (styles : StyleSet)
    (inner : Nat) :
    r.viewportRows = s.size.rows - (if s.prefs.showFooter then 7 else 5) ∧
      (card (tabs :: [] :: Content.logs r styles inner ++ Content.footer s.prefs .logs styles inner) inner
        styles).length = s.size.rows := by
  have hrows : r.viewportRows = max (s.size.rows - if s.prefs.showFooter then 7 else 5) 1 := by
    rw [Monitor.viewportRows, logViewportRows, h.size, h.prefs]
  -- the hints take two rows, or none
  have hfooter : (Content.footer s.prefs .logs styles inner).length =
      if s.prefs.showFooter then 2 else 0 := by
    unfold Content.footer
    split
    · rfl
    · rfl
  simp only [card, List.length_append, List.length_cons, List.length_map, List.length_nil, hfooter,
    Content.length_logs]
  rw [hrows]
  cases hshown : s.prefs.showFooter with
  | true =>
    simp only [hshown, if_true] at hroom ⊢
    omega
  | false =>
    simp only [hshown, Bool.false_eq_true, if_false] at hroom ⊢
    omega

end Renderer

namespace Session

variable {s : Session} {r : Monitor} {k : Key}

/-- The keys that bring the window to one end of the log. -/
theorem monitor_update_key (ht : s.terminated = false) (hphase : s.phase = .runtime)
    (hr : s.monitor = some r) (hscreen : r.screen = .logs) (hconfirm : r.confirm = none) :
    (k.action? = some .first → (s.update (.key k)).1.monitor =
        some { r with logFollow := false, logScroll := r.maxScroll }) ∧
      (k.action? = some .last → (s.update (.key k)).1.monitor =
        some { r with logFollow := true, logScroll := 0 }) := by
  -- the key reaches the monitor as an action, since the session goes on and no question is asked
  have hkey : ∀ action, k.action? = some action → (s.update (.key k)).1 = (s.handleAction action).1 := by
    intro action hk
    unfold update
    rw [if_neg (by rw [ht]; decide)]
    simp only [hk]
  have hoperate : ∀ action, action ≠ .quit → (s.handleAction action).1 = (s.operate action).1 := by
    intro action hquit
    unfold handleAction
    simp only [hphase, if_neg hquit]
  constructor
  · intro hk
    rw [hkey _ hk, hoperate _ (by decide)]
    simp only [operate, hr, Monitor.handleKey, hconfirm, hscreen, Monitor.handleLogsKey, Monitor.quiet]
  · intro hk
    rw [hkey _ hk, hoperate _ (by decide)]
    simp only [operate, hr, Monitor.handleKey, hconfirm, hscreen, Monitor.handleLogsKey, Monitor.quiet]

end Session

namespace Renderer

open Session

/-- **The logs screen shows its window and fits the terminal**, in every state that messages lead to.

    If the terminal has room for one line of the log at least, the box is as high as the terminal and
    each of its rows is on the frame, in its place; below the tabs there are as many rows as the monitor
    scrolls by, with the lines from `start` to `stop` in them, as far as there are lines.  The status
    line tells these numbers, or that there are no lines, and is cut to the box like any other.  The
    keys for the two ends of the log bring its first line and its last one into the window. -/
theorem logs_frame (config : Config) (prefs : Preferences) (logs : LogSource) (size : TerminalSize)
    (ms : List Message) (r : Monitor) :
    let s := (begun config prefs logs size).after ms
    s.phase = .runtime → s.monitor = some r → r.screen = .logs →
    ((if s.prefs.showFooter then 8 else 6) ≤ s.size.rows →
      ∀ (colour : Bool) (history : List (Session × Int)) (now : Int),
        let styles := StyleSet.build s.prefs.theme colour
        let inner := innerWidth s
        let width := max s.size.columns 1
        let total := r.logLines.length
        let stop := total - r.logScroll
        let start := stop - r.viewportRows
        let count := min r.viewportRows total
        let status := (if r.logFollow then "following" else "paused").toList ++
          if total = 0 then " · no log lines yet".toList
          else " · lines ".toList ++ natText (start + 1) ++ '-' :: natText stop ++ " of ".toList ++
            natText total
        let rows :=
          ((r.logLines.drop start).take count).map
              (fun line => styles.paint .text (truncate (strip line) inner)) ++
            List.replicate (r.viewportRows - count) []
        let boxed :=
          card (TabStrip.render labels styles Screen.logs.index inner :: [] ::
              (rows ++ [styles.paint .muted (truncate status inner)]) ++
                Content.footer s.prefs .logs styles inner) inner styles
        r.viewportRows = s.size.rows - (if s.prefs.showFooter then 7 else 5) ∧
          rows.length = r.viewportRows ∧ start + count = stop ∧ stop ≤ total ∧
          boxed.length = s.size.rows ∧
          ((after colour history).render s now).1 =
            boxed.map (placed width (columnsLeft boxed width) styles.base styles.reset)) ∧
    (s.terminated = false → ∀ k : Key,
      (k.action? = some .first → ∃ r', (s.update (.key k)).1.monitor = some r' ∧ r'.screen = .logs ∧
        r'.logLines = r.logLines ∧ Content.windowStart r' = 0 ∧
        (Content.window r').head? = r.logLines.head?) ∧
      (k.action? = some .last → ∃ r', (s.update (.key k)).1.monitor = some r' ∧ r'.screen = .logs ∧
        r'.logLines = r.logLines ∧ Content.windowEnd r' = r.logLines.length ∧
        (Content.window r').getLast? = r.logLines.getLast?)) := by
  intro s hphase hr hscreen
  have hshow : r.OnShow s := onShow_after config prefs logs size ms hr
  -- a question is open on another screen only, so the key and the content are those of the logs
  have hconfirm : r.confirm = none := by
    cases hc : r.confirm with
    | none => rfl
    | some choice =>
      have hdataplane := hshow.confirm (by rw [hc]; rfl)
      rw [hscreen] at hdataplane
      exact nomatch hdataplane
  constructor
  · intro hroom colour history now styles inner width total stop start count status rows boxed
    have hstatus : Content.windowStatus r = status := Content.windowStatus_eq r
    have hlogs : Content.logs r styles inner = rows ++ [styles.paint .muted (truncate status inner)] := by
      rw [Content.logs_of_inWindow hshow.window, hstatus]
      rfl
    obtain ⟨hviewport, hheight⟩ := length_log_card hshow hroom
      (TabStrip.render labels styles Screen.logs.index inner) styles inner
    rw [hlogs] at hheight
    have hwindow := Content.windowStart_add_length r
    rw [Content.length_window hshow.window.scroll_le] at hwindow
    have hlength := Content.length_logs styles inner r
    rw [hlogs, List.length_append, List.length_singleton] at hlength
    refine ⟨hviewport, Nat.succ.inj hlength, hwindow, Nat.sub_le _ _, hheight, ?_⟩
    obtain ⟨c, hc, hframe⟩ := render_eq (isFaithful_after colour history) s now
    have hrows : max s.size.rows 1 = s.size.rows := by
      split at hroom <;> omega
    have hwidth : max width 1 = width := Nat.max_eq_left (Nat.le_max_right _ _)
    have hboxed : boxed.length = max s.size.rows 1 := hheight.trans hrows.symm
    -- the box has as many rows as the screen, so none is added and none cut off
    have hplaced := fill_center_of_length hboxed width styles.base styles.reset
    rw [hwidth] at hplaced
    rw [hframe, content_logs hc hphase hr hscreen hconfirm, hlogs, hshow.prefs, hrows]
    exact hplaced
  · intro ht k
    obtain ⟨hfirst, hlast⟩ := monitor_update_key (k := k) ht hphase hr hscreen hconfirm
    constructor
    · intro hk
      have htop : Monitor.logScroll { r with logFollow := false, logScroll := r.maxScroll } =
          Monitor.maxScroll { r with logFollow := false, logScroll := r.maxScroll } := rfl
      exact ⟨_, hfirst hk, hscreen, rfl, Content.windowStart_of_top htop, Content.head?_window_of_top htop⟩
    · intro hk
      exact ⟨_, hlast hk, hscreen, rfl, Nat.sub_zero _, Content.getLast?_window_of_bottom rfl⟩

/-- A session on its logs screen, with these lines in the log. -/
def visited (size : TerminalSize) (lines : List Text) : Session :=
  (begun (Config.standard none) .standard ⟨.ring, true⟩ size).after
    [.key ⟨.enter, false, .press⟩, .activate ⟨.tun, Token.never, none, 0⟩, .key ⟨.tab, false, .press⟩,
      .key ⟨.tab, false, .press⟩, .result 1 (.logsFetched 1 lines)]

/-- Five lines, of which there is room for three: the frame is the rows of the box, and the key for the
    beginning brings the first line into the window. -/
theorem logs_frame_of_visit :
    let s := visited ⟨60, 10⟩ (["a", "b", "c", "d", "e"].map String.toList)
    (∃ boxed : List Text, boxed.length = 10 ∧
      ((after false []).render s 0).1 = boxed.map (placed 60 (columnsLeft boxed 60) [] [])) ∧
    ∃ r', (s.update (.key ⟨.home, false, .press⟩)).1.monitor = some r' ∧
      (Content.window r').head? = some "a".toList := by
  obtain ⟨hframe, hkeys⟩ := logs_frame (Config.standard none) .standard ⟨.ring, true⟩ ⟨60, 10⟩
    [.key ⟨.enter, false, .press⟩, .activate ⟨.tun, Token.never, none, 0⟩, .key ⟨.tab, false, .press⟩,
      .key ⟨.tab, false, .press⟩,
      .result 1 (.logsFetched 1 (["a", "b", "c", "d", "e"].map String.toList))] _ rfl rfl rfl
  obtain ⟨-, -, -, -, hheight, hrows⟩ := hframe (by decide) false [] 0
  obtain ⟨r', hr', -, -, -, hhead⟩ := (hkeys rfl ⟨.home, false, .press⟩).1 rfl
  exact ⟨⟨_, hheight, hrows⟩, r', hr', hhead⟩

/-- Without lines, and where the box has no room for them, the status line tells no numbers. -/
theorem status_without_numbers :
    let digitless (s : Session) := ((after false []).render s 0).1.all (·.all fun c => !c.isDigit)
    let five := visited ⟨24, 10⟩ (["a", "b", "c", "d", "e"].map String.toList)
    (∃ r, (visited ⟨60, 10⟩ []).monitor = some r ∧ r.screen = .logs ∧ r.logLines.length = 0 ∧
      Content.windowStart r = 0 ∧ Content.windowEnd r = 0 ∧ digitless (visited ⟨60, 10⟩ []) = true) ∧
    ∃ r, five.monitor = some r ∧ r.screen = .logs ∧ r.logLines.length = 5 ∧
      Content.windowStart r = 2 ∧ Content.windowEnd r = 5 ∧ digitless five = true :=
  ⟨⟨_, rfl, rfl, rfl, rfl, rfl, by decide +kernel⟩, ⟨_, rfl, rfl, rfl, rfl, rfl, by decide +kernel⟩⟩

end Renderer
end TunnelBoard
