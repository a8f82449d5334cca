import TunnelBoard.Display.Content
import TunnelBoard.Proofs.Monitor.Consistent
/-
  The window on the log.

  The window is counted from the end of the log: `logScroll` lines are below it, and it ends there.  So a
  log that grows would carry a paused window along, and `showLines` moves it up by as many lines as came
  in.  That is one line too many for each line the log was short of the window, and clamping takes back
  exactly those (`windowStart_showLines`).  What was in the window stays where it was, for lines come in
  behind it (`getElem?_window_showLines`).

  While the window lies within the log, it shows all the lines there is room for (`length_window`), from
  `windowStart` on (`window_eq`).
-/

namespace TunnelBoard
namespace Content

variable {r : Monitor}

/-! ## The lines in the window -/

/-- There is room for one line at least. -/
theorem viewportRows_pos (r : Monitor) : 0 < r.viewportRows := Nat.le_max_right _ _

/-- The window has all the lines from its start to its end. -/
theorem windowStart_add_length (r : Monitor) : windowStart r + (window r).length = windowEnd r := by
  simp only [window, windowStart, windowEnd, List.length_take, List.length_drop]
  omega

/-- A window has no more lines than there is room for. -/
theorem length_window_le (r : Monitor) : (window r).length ≤ r.viewportRows := by
  have hplace := windowStart_add_length r
  unfold windowStart at hplace
  omega

/-- A window within the log is full, if the log is long enough. -/
theorem length_window (h : r.logScroll ≤ r.maxScroll) :
    (window r).length = min r.viewportRows r.logLines.length := by
  have hpos := viewportRows_pos r
  have hplace := windowStart_add_length r
  unfold Monitor.maxScroll at h
  simp only [windowStart, windowEnd] at hplace
  omega

/-- A window within the log shows the lines from `windowStart` on. -/
theorem window_eq (h : r.logScroll ≤ r.maxScroll) :
    window r = (r.logLines.drop (windowStart r)).take (min r.viewportRows r.logLines.length) := by
  have hcount : windowEnd r - windowStart r = min r.viewportRows r.logLines.length := by
    rw [← length_window h, ← windowStart_add_length r]
    exact Nat.add_sub_cancel_left _ _
  rw [window, hcount]

/-- A line in the window is the line of the log as far behind `windowStart`. -/
theorem getElem?_window (r : Monitor) {i : Nat} (hi : i < (window r).length) :
    (window r)[i]? = r.logLines[windowStart r + i]? := by
  have hwithin : i < windowEnd r - windowStart r := by
    rw [window, List.length_take] at hi
    omega
  rw [window, List.getElem?_take_of_lt hwithin, List.getElem?_drop]

/-! ## The rows of the screen -/

/-- A line of the log as it is shown. -/
def shownLine (styles : StyleSet) (inner : Nat) (line : Text) : Text :=
  styles.paint .text (truncate (strip line) inner)

variable (styles : StyleSet) (inner : Nat)

/-- The content of the screen is the lines of the window, room for more, and the line that tells of
    it. -/
theorem logs_eq (r : Monitor) :
    logs r styles inner = (window r).map (shownLine styles inner) ++
      List.replicate (r.viewportRows - (window r).length) [] ++
        [styles.paint .muted (truncate (windowStatus r) inner)] := by
  unfold logs
  dsimp only
  rw [List.length_map]
  rfl

/-- The rows of the window, and the status line. -/
theorem length_logs (r : Monitor) : (logs r styles inner).length = r.viewportRows + 1 := by
  have hle := length_window_le r
  rw [logs_eq]
  simp only [List.length_append, List.length_map, List.length_replicate, List.length_singleton]
  omega

/-- The rows of the window are the lines in it. -/
theorem getElem?_logs (r : Monitor) {i : Nat} (hi : i < (window r).length) :
    (logs r styles inner)[i]? = (window r)[i]?.map (shownLine styles inner) := by
  have hmap : i < ((window r).map (shownLine styles inner)).length := by
    rw [List.length_map]
    exact hi
  rw [logs_eq, List.append_assoc, List.getElem?_append_left hmap, List.getElem?_map]

/-! ## New lines

The window of a paused monitor is counted from the end of the log, so it has to move up by as many
lines as come in.  It stays over the same lines for this reason. -/

/-- A paused window moves up by as many lines as came in, as far as the log goes. -/
theorem logScroll_showLines_of_paused (hpaused : r.logFollow = false) (lines : List Text) :
    (r.showLines lines).logScroll =
      min (r.logScroll + (lines.length - r.logLines.length)) (lines.length - r.viewportRows) := by
  unfold Monitor.showLines Monitor.clampScroll
  simp only [hpaused]
  rfl

/-- A window that follows the log stays at its end. -/
theorem logScroll_showLines_of_following (hfollow : r.logFollow = true) (lines : List Text) :
    (r.showLines lines).logScroll = 0 := by
  unfold Monitor.showLines Monitor.clampScroll
  simp only [hfollow]
  rfl

/-- A paused window starts where it did, and ends no earlier, when the log grows. -/
theorem windowStart_showLines (hpaused : r.logFollow = false) (more : List Text) :
    windowStart (r.showLines (r.logLines ++ more)) = windowStart r ∧
      windowEnd r ≤ windowEnd (r.showLines (r.logLines ++ more)) := by
  have hscroll := logScroll_showLines_of_paused hpaused (r.logLines ++ more)
  have hrows : (r.showLines (r.logLines ++ more)).viewportRows = r.viewportRows := rfl
  have hlines : (r.showLines (r.logLines ++ more)).logLines = r.logLines ++ more := rfl
  simp only [windowStart, windowEnd, hscroll, hrows, hlines, List.length_append]
  omega

/-- The lines in a paused window stay in their places when the log grows. -/
theorem getElem?_window_showLines (hpaused : r.logFollow = false) (more : List Text) {i : Nat}
    (hi : i < (window r).length) :
    i < (window (r.showLines (r.logLines ++ more))).length ∧
      (window (r.showLines (r.logLines ++ more)))[i]? = (window r)[i]? := by
  obtain ⟨hstart, hend⟩ := windowStart_showLines hpaused more
  have hplace := windowStart_add_length r
  have hplace' := windowStart_add_length (r.showLines (r.logLines ++ more))
  have hi' : i < (window (r.showLines (r.logLines ++ more))).length := by omega
  -- the line was there before the others came in
  have hold : windowStart r + i < r.logLines.length := by
    have hwithin : windowEnd r ≤ r.logLines.length := Nat.sub_le _ _
    omega
  refine ⟨hi', ?_⟩
  rw [getElem?_window _ hi', getElem?_window _ hi, hstart]
  exact List.getElem?_append_left hold

/-- The last line of a window that follows is the last one of the log. -/
theorem getLast?_window_of_bottom (h : r.logScroll = 0) : (window r).getLast? = r.logLines.getLast? := by
  have hpos := viewportRows_pos r
  have hend : windowEnd r = r.logLines.length := by rw [windowEnd, h, Nat.sub_zero]
  have hwindow : window r = r.logLines.drop (windowStart r) := by
    rw [window, hend]
    exact List.take_of_length_le (Nat.le_of_eq List.length_drop)
  rw [hwindow, List.getLast?_drop]
  split
  · rename_i hshort
    have hnil : r.logLines = [] := by
      rw [windowStart, hend] at hshort
      exact List.eq_nil_of_length_eq_zero (by omega)
    rw [hnil]
    rfl
  · rfl

/-- **A paused view stays put while the log grows**, and one that follows stays at the end.

    When lines come in behind those of a paused window, it starts at the same line as before, every line
    that was shown is shown in the same row, and the screen has as many rows as before.  A window that
    follows ends at the newest line, whatever lines come in.  Both windows lie within the log then. -/
theorem window_of_fetched (r : Monitor) :
    (r.logFollow = false → ∀ more : List Text,
      let r' := (r.handleResult (.logsFetched r.logSeq (r.logLines ++ more))).1
      windowStart r' = windowStart r ∧
        (∀ i < (window r).length, (window r')[i]? = (window r)[i]? ∧
          ∀ styles inner, (logs r' styles inner)[i]? = (logs r styles inner)[i]?) ∧
        (∀ styles inner, (logs r' styles inner).length = (logs r styles inner).length) ∧
        r'.logScroll ≤ r'.maxScroll) ∧
    (r.logFollow = true → ∀ lines : List Text,
      let r' := (r.handleResult (.logsFetched r.logSeq lines)).1
      r'.logLines = lines ∧ windowEnd r' = lines.length ∧ (window r').getLast? = lines.getLast? ∧
        r'.logScroll ≤ r'.maxScroll) := by
  -- lines with the current number are shown at once
  have hfetched : ∀ lines, (r.handleResult (.logsFetched r.logSeq lines)).1 = r.showLines lines :=
    fun _ => if_pos rfl
  have hafter : ∀ lines, (r.showLines lines).InWindow := fun lines => Monitor.inWindow_clampScroll _
  constructor
  · intro hpaused more
    rw [hfetched]
    refine ⟨(windowStart_showLines hpaused more).1, fun i hi => ?_, fun styles inner => ?_,
      (hafter _).scroll_le⟩
    · obtain ⟨hi', hsame⟩ := getElem?_window_showLines hpaused more hi
      refine ⟨hsame, fun styles inner => ?_⟩
      rw [getElem?_logs styles inner _ hi', getElem?_logs styles inner _ hi, hsame]
    · rw [length_logs, length_logs]
      rfl
  · intro hfollow lines
    rw [hfetched]
    have hbottom := logScroll_showLines_of_following hfollow lines
    refine ⟨rfl, ?_, getLast?_window_of_bottom hbottom, (hafter lines).scroll_le⟩
    rw [windowEnd, hbottom]
    rfl

/-- A monitor with room for two lines of its log. -/
def twoRows (logLines : List Text) (logFollow : Bool) : Monitor :=
  let started := Monitor.start 1 ⟨.tun, Token.never, none, 0⟩ .standard ⟨.ring, true⟩
    (Config.standard none).dashboard ⟨80, 9⟩
  { started.1 with logLines, logFollow }

/-- One line, and two more: a paused window takes in the second, one that follows the third. -/
theorem window_of_fetched_short :
    (window ((twoRows ["a".toList] false).handleResult
        (.logsFetched 0 ["a".toList, "b".toList, "c".toList])).1)[0]? = some "a".toList ∧
      (window ((twoRows ["a".toList] true).handleResult
        (.logsFetched 0 ["a".toList, "b".toList, "c".toList])).1).getLast? = some "c".toList := by
  obtain ⟨-, hstay, -⟩ := (window_of_fetched (twoRows ["a".toList] false)).1 rfl ["b".toList, "c".toList]
  obtain ⟨-, -, hlast, -⟩ := (window_of_fetched (twoRows ["a".toList] true)).2 rfl
    ["a".toList, "b".toList, "c".toList]
  exact ⟨(hstay 0 (by decide)).1, hlast⟩

end Content
end TunnelBoard
