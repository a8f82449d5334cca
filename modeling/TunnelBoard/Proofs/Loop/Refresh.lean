import TunnelBoard.Proofs.Loop.Pace
import TunnelBoard.Proofs.Loop.Trace
/-
  The refresh of a screen, seen from a whole run.

  A loop starts staged and paced (`paced_start`), every turn keeps it so, and hence every state of every
  proper run is (`paced_run`).  What is left to add is that numbers do not come back: a number that has
  been used and is not current any more is `Spent`, and stays so.  An answer that is taken therefore
  belongs to the visit that goes on: at every moment since it was asked for, its number was the current
  one and its screen was showing.
-/

namespace TunnelBoard

namespace Loop

/-- How many waits of a chain with a number go on, or have posted and are still to be handled. -/
def timers (l : Loop) (ch : Chain) (k : Link) : Nat :=
  (l.waits.filterMap (ch.ofMessage? ·.awaited.message)).count k +
    (l.queue.filterMap ch.ofMessage?).count k

/-- How many waits of a chain with a number are about to begin. -/
def dueTimers (l : Loop) (ch : Chain) (k : Link) : Nat := (l.effects.filterMap ch.ofEffect?).count k

/-- Whether a loop has done all that it has to do before it turns to the next message, or to the end:
    no effect is left to be carried out, and it is not on the point of leaving. -/
def isSettled (l : Loop) : Bool := l.effects.isEmpty && !(l.stage = .running && l.quitting)

end Loop

namespace Core

variable {ch : Chain} {c c' : Core} {k : Link}

/-! ## Every state of a run -/

variable (config : Config) (prefs : Preferences) (logs : LogSource) (size : TerminalSize)
  (capacity : Nat) (store : PreferencesStore) (world : World)

/-- What matters of a loop at its start. -/
theorem core_start :
    (Loop.start (Session.make config prefs logs size) capacity store world).core =
      ⟨Session.begun config prefs logs size, Session.opening config prefs logs size, false, .running,
        [], [], world.ended, world.log, world.unannounced⟩ := rfl

/-- A loop is staged from the start. -/
theorem staged_start :
    (Loop.start (Session.make config prefs logs size) capacity store world).core.Staged := by
  obtain ⟨hmonitor, -⟩ := Session.begun_frame config prefs logs size
  rw [core_start]
  -- a session asks for nothing at first, or it is over and tells only that
  refine ⟨Session.scoped_begun config prefs logs size, fun hq => ?_, fun _ => Or.inr fun r hr => ?_,
    fun hs => absurd rfl hs, fun p hp => ?_⟩
  · rcases hq with hq | hq
    · exact nomatch hq
    · rcases Session.begun_cases config prefs logs size with ⟨-, -, hopening⟩ | ⟨ht, -⟩
      · rw [hopening] at hq
        exact absurd hq List.not_mem_nil
      · exact ht
  · exact nomatch hmonitor.symm.trans hr
  · rcases Session.begun_cases config prefs logs size with ⟨-, -, hopening⟩ | ⟨-, -, e, hopening⟩
    · rw [hopening] at hp
      exact absurd hp List.not_mem_nil
    · rw [hopening] at hp
      rcases List.mem_cons.1 hp with hp | hp
      · exact nomatch hp
      · exact nomatch List.mem_singleton.1 hp

/-- Before there is a monitor, no number is on the way. -/
theorem paced_start (ch : Chain) :
    (Loop.start (Session.make config prefs logs size) capacity store world).core.Paced ch := by
  obtain ⟨hmonitor, -⟩ := Session.begun_frame config prefs logs size
  have habsent : ∀ e ∈ Session.opening config prefs logs size, ∀ k,
      ¬ (ch.ofEffect? e = some k ∨ ch.ofRequest? e = some k) :=
    fun e he k hk => Session.not_link_of_mem_opening he hk
  rw [core_start]
  refine ⟨fun k hk => ?_, fun r hr => (nomatch hmonitor.symm.trans hr),
    fun r hr => (nomatch hmonitor.symm.trans hr), fun e he k hk => ?_,
    fun t ht => absurd ht List.not_mem_nil⟩
  · -- no wait and no message is there yet, and the opening asks for no timer
    simp only [links, answers, List.filterMap_nil, List.append_nil, List.mem_filterMap] at hk
    rcases hk with ⟨e, he, hk⟩ | ⟨e, he, hk⟩
    · exact absurd (Or.inl hk) (habsent e he k)
    · exact absurd (Or.inr hk) (habsent e he k)
  · exact absurd (Or.inl hk) (habsent e he k)

variable {config prefs logs size capacity store world}

/-- Every state of a proper run is staged and paced. -/
theorem paced_run {moves : List Move} {l : Loop} (hp : ∀ m ∈ moves, m.isProper)
    (hr : (Loop.start (Session.make config prefs logs size) capacity store world).run moves = some l)
    (ch : Chain) : l.core.Staged ∧ l.core.Paced ch := by
  refine Loop.run_induction (P := fun c => c.Staged ∧ c.Paced ch) (fun c m c' h ht => ?_) hp ?_ hr
  · exact ⟨h.1.turn ht, h.2.turn h.1 ht⟩
  · exact ⟨staged_start .., paced_start ..⟩

/-! ## Numbers do not come back -/

/-- A number that has been used and is not current any more. -/
def Spent (ch : Chain) (s : Session) (k : Link) : Prop :=
  ch.Reached s k ∧ ∀ r, s.monitor = some r → k ≠ ch.link r

/-- To end the waits brings no number back. -/
theorem spent_stopWaits {s : Session} (h : Spent ch s k) :
    Spent ch { s with monitor := s.monitor.map Monitor.stopWaits } k := by
  obtain ⟨⟨hle, hnumber⟩, -⟩ := h
  refine ⟨⟨hle, fun r' hr' hseq => ?_⟩, fun r' hr' hk => ?_⟩
  · obtain ⟨r, hr, rfl⟩ := Option.map_eq_some_iff.1 hr'
    have := hnumber r hr hseq
    rw [Monitor.number_stopWaits]
    omega
  · obtain ⟨r, hr, rfl⟩ := Option.map_eq_some_iff.1 hr'
    have := hnumber r hr (congrArg Prod.fst hk)
    have hsnd : k.2 = ch.number r.stopWaits := congrArg Prod.snd hk
    rw [Monitor.number_stopWaits] at hsnd
    omega

/-- No message brings a number back: a number that is new is larger than all that were used. -/
theorem spent_update {s : Session} (hs : s.Scoped) (h : Spent ch s k) (m : Message) :
    Spent ch (s.update m).1 k := by
  cases ht : s.terminated with
  | true =>
    rw [Session.update_of_terminated ht]
    exact h
  | false =>
    have hchange := Session.update_change (hs.standing ht) ht m
    refine ⟨Session.reached_of_change hchange h.1, fun r' hr' hk => ?_⟩
    cases Session.passage_update hs ht m ch with
    | gone hnone => exact nomatch hnone.symm.trans hr'
    | kept before after link =>
      cases after.symm.trans hr'
      exact h.2 _ before (hk.trans link)
    | fresh after new =>
      cases after.symm.trans hr'
      exact new (hk ▸ h.1)

/-- No move of the loop brings a number back. -/
theorem spent_turn (hs : c.Staged) (h : Spent ch c.session k) {m : Move} (ht : c.Turn m c') :
    Spent ch c'.session k := by
  cases ht with
  | handled => exact spent_update hs.session h _
  | left => exact spent_stopWaits h
  | failed => exact h
  | aside | endedOutside | appended | announced | received | performed | brokeDown | began | asked
    | closed | finished | woke | lapsed | posted | dropped => exact h

/-- So a number that is spent stays so, in all of a run. -/
theorem spent_run {moves : List Move} {l l' : Loop} (hp : ∀ m ∈ moves, m.isProper)
    (hs : l.core.Staged) (h : Spent ch l.session k) (hr : l.run moves = some l') :
    Spent ch l'.session k := by
  have hboth : l'.core.Staged ∧ Spent ch l'.core.session k :=
    Loop.run_induction (P := fun c => c.Staged ∧ Spent ch c.session k)
      (fun c m c' h ht => ⟨h.1.turn ht, spent_turn h.1 h.2 ht⟩) hp ⟨hs, h⟩ hr
  exact hboth.2

end Core

namespace Loop

/-! ## Timers of a loop

A timer may wait, or have been posted, or be due to begin.  In a loop that is settled none is due, and
the counts are those of the theorem. -/

variable {l l' : Loop} {r : Monitor} {ch : Chain}

/-- All timers with the current number are one, if one is wanted. -/
theorem timers_add_dueTimers (h : l.core.Paced ch) (hr : l.session.monitor = some r) :
    l.timers ch (ch.link r) + l.dueTimers ch (ch.link r) = if ch.Wants r then 1 else 0 := by
  have hone : (l.core.links ch).count (ch.link r) = _ := h.one r hr
  -- timers are counted where they can be: among waits, messages and effects
  rw [← hone]
  simp only [timers, dueTimers, Core.links, List.count_append, core]
  omega

/-- In a settled loop no timer is still to begin. -/
theorem dueTimers_of_isSettled (h : l.isSettled) (ch : Chain) (k : Link) : l.dueTimers ch k = 0 := by
  have heffects := (Bool.and_eq_true_iff.1 h).1
  rw [dueTimers, List.isEmpty_iff.1 heffects]
  rfl

/-- In a settled loop the waits have been ended with the session. -/
theorem isStopped_of_isSettled (hs : l.core.Staged) (h : l.isSettled)
    (ht : l.session.terminated = true) (hr : l.session.monitor = some r) : r.isStopped = true := by
  have hnotleaving := (Bool.and_eq_true_iff.1 h).2
  rcases hs.stopped ht with ⟨hstage, hquitting⟩ | hall
  · have hleaving : (decide (l.stage = .running) && l.quitting) = true := by
      rw [Bool.and_eq_true, decide_eq_true_eq]
      exact ⟨hstage, hquitting⟩
    rw [hleaving] at hnotleaving
    cases hnotleaving
  · exact hall r hr

/-- While the session goes on, so does its monitor. -/
theorem going_of_live (hs : l.core.Staged) (ht : l.session.terminated = false)
    (hr : l.session.monitor = some r) : l.session.phase = .runtime ∧ r.isStopped = false := by
  have hup : l.session.monitor.isSome = true := by
    rw [hr]
    rfl
  exact ⟨(hs.session.standing ht).monitor_iff.1 hup, hs.session.going ht r hr⟩

/-- An answer whose number is current at the end of a run belongs to the visit that goes on since. -/
theorem visit_of_answer (hs : l.core.Staged) (hpaced : l.core.Paced ch) {moves : List Move}
    (hp : ∀ m ∈ moves, m.isProper) (hrun : l.run moves = some l') (hr : l'.session.monitor = some r)
    {m : Message} (hm : m ∈ l.queue) (hk : ch.ofAnswer? m = some (ch.link r)) :
    ∃ r₁, l.session.monitor = some r₁ ∧ ch.link r₁ = ch.link r ∧ r₁.screen = ch.home := by
  have hanswer : ch.link r ∈ l.core.answers ch :=
    List.mem_append_right _ (List.mem_filterMap.2 ⟨m, hm, hk⟩)
  by_cases hcurrent : ∃ r₁, l.session.monitor = some r₁ ∧ ch.link r₁ = ch.link r
  · obtain ⟨r₁, hr₁, hsame⟩ := hcurrent
    exact ⟨r₁, hr₁, hsame, (hpaced.wanted r₁ hr₁ (hsame ▸ hanswer)).1⟩
  · -- a number that was given up before cannot be the current one now
    have hspent : Core.Spent ch l.session (ch.link r) :=
      ⟨hpaced.used _ (Or.inr hanswer), fun r₁ hr₁ hk => hcurrent ⟨r₁, hr₁, hk.symm⟩⟩
    exact absurd rfl ((Core.spent_run hp hs hspent hrun).2 r hr)

/-- **One timer for the screen that shows.**  In every state of every run, however keys, timers and
    messages follow each other, and for the monitor that is up:

    * a settled loop has one timer with the current number, waiting or posted, while the session goes
      on and the chain's home shows, and none otherwise;
    * in the middle of its work the loop may have the timer still before it, but never a second one;
    * an answer with the current number, whenever it is found in the queue, belongs to the visit that
      goes on: the number was current then, and the screen was showing. -/
theorem one_timer_for_the_screen (config : Config) (prefs : Preferences) (logs : LogSource)
    (size : TerminalSize) (capacity : Nat) (store : PreferencesStore) (world : World)
    {moves : List Move} {l : Loop} {r : Monitor} (hp : ∀ m ∈ moves, m.isProper)
    (hrun : (start (Session.make config prefs logs size) capacity store world).run moves = some l)
    (hr : l.session.monitor = some r) (ch : Chain) :
    (l.isSettled → l.timers ch (ch.link r) =
      if l.session.terminated = false ∧ l.session.phase = .runtime ∧ r.screen = ch.home then 1 else 0) ∧
    (l.session.terminated = false → l.timers ch (ch.link r) + l.dueTimers ch (ch.link r) =
      if l.session.phase = .runtime ∧ r.screen = ch.home then 1 else 0) ∧
    l.timers ch (ch.link r) + l.dueTimers ch (ch.link r) ≤ 1 ∧
    ∀ before after l₁, moves = before ++ after →
      (start (Session.make config prefs logs size) capacity store world).run before = some l₁ →
      ∀ m ∈ l₁.queue, ch.ofAnswer? m = some (ch.link r) →
        ∃ r₁, l₁.session.monitor = some r₁ ∧ ch.link r₁ = ch.link r ∧ r₁.screen = ch.home := by
  obtain ⟨hstaged, hpaced⟩ := Core.paced_run hp hrun ch
  -- each part is what this count comes to
  have hcount := timers_add_dueTimers hpaced hr
  refine ⟨fun hsettled => ?_, fun ht => ?_, ?_, ?_⟩
  · -- settled, so nothing is still to begin
    rw [dueTimers_of_isSettled hsettled, Nat.add_zero] at hcount
    rw [hcount]
    cases ht : l.session.terminated with
    | false =>
      obtain ⟨hphase, hgoing⟩ := going_of_live hstaged ht hr
      simp [Chain.Wants, hphase, hgoing]
    | true =>
      have hstopped := isStopped_of_isSettled hstaged hsettled ht hr
      simp [Chain.Wants, hstopped]
  · obtain ⟨hphase, hgoing⟩ := going_of_live hstaged ht hr
    rw [hcount]
    simp [Chain.Wants, hphase, hgoing]
  · rw [hcount]
    split
    · exact Nat.le_refl _
    · exact Nat.zero_le _
  · -- the run is taken apart where the answer was found
    intro before after l₁ hsplit hbefore m hm hlink
    have hp₁ : ∀ m ∈ before, m.isProper := fun m hm => hp m (hsplit ▸ List.mem_append_left _ hm)
    have hp₂ : ∀ m ∈ after, m.isProper := fun m hm => hp m (hsplit ▸ List.mem_append_right _ hm)
    obtain ⟨hstaged₁, hpaced₁⟩ := Core.paced_run hp₁ hbefore ch
    have hafter : l₁.run after = some l := by
      rw [hsplit, run_append, hbefore] at hrun
      exact hrun
    exact visit_of_answer hstaged₁ hpaced₁ hp₂ hafter hr hm hlink

/-! ## A run -/

/-- A loop with standard settings, whose logs screen shows a log that tells of new lines. -/
def specimen : Loop :=
  start (Session.make (Config.standard none) .standard ⟨.ring, true⟩ ⟨80, 24⟩) 16
    (.memory .standard []) (World.make (.empty 100) [])

/-- A key comes in and is handled. -/
def press (code : KeyCode) : List Move := [.receive (.key ⟨code, false, .press⟩), .handle]

/-- The first mode is picked, its data plane comes up, and the loop starts what that needs: a wait for
    its end, a request for traffic, and a timer. -/
def entrance : List Move :=
  press .enter ++ [.perform, .receive (.activate ⟨.tun, Token.never, none, 0⟩), .handle, .perform,
    .perform, .perform]

/-- A property of the monitor at the end of a run, found out by making the run. -/
theorem exists_of_run (l₀ : Loop) (moves : List Move) (p : Loop → Monitor → Bool)
    (h : ((l₀.run moves).any fun l => l.session.monitor.any (p l)) = true) :
    ∃ l r, l₀.run moves = some l ∧ l.session.monitor = some r ∧ p l r = true := by
  obtain ⟨l, hl, hmonitor⟩ := (Option.any_eq_true _ _).1 h
  obtain ⟨r, hr, hp⟩ := (Option.any_eq_true _ _).1 hmonitor
  exact ⟨l, r, hl, hr, hp⟩

/-- The screen of the data plane has its timer as soon as it shows. -/
theorem one_timer_after_entrance :
    ∃ l r, (∀ m ∈ entrance, m.isProper) ∧ specimen.run entrance = some l ∧
      l.session.monitor = some r ∧ l.timers .ticks (Chain.ticks.link r) = 1 := by
  have hp : ∀ m ∈ entrance, m.isProper := by decide
  obtain ⟨l, r, hl, hr, hend⟩ := exists_of_run specimen entrance
    (fun l r => l.isSettled && !l.session.terminated && l.session.phase = .runtime &&
      r.screen = .dataplane) (by decide +kernel)
  simp only [Bool.and_eq_true, Bool.not_eq_true', decide_eq_true_eq] at hend
  obtain ⟨⟨⟨hsettled, hlive⟩, hphase⟩, hscreen⟩ := hend
  refine ⟨l, r, hp, hl, hr, ?_⟩
  have htimers := (one_timer_for_the_screen _ _ _ _ _ _ _ hp hl hr .ticks).1 hsettled
  rw [htimers, if_pos ⟨hlive, hphase, hscreen⟩]

end Loop
end TunnelBoard
