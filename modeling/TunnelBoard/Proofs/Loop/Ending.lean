import TunnelBoard.Proofs.Loop.Margin
import TunnelBoard.Proofs.Loop.Refresh
import TunnelBoard.Proofs.Session.Buffer
import TunnelBoard.Proofs.Session.Protocol
import TunnelBoard.Session.Dealings
/-
  How a loop comes to its end, and what it tells of it.

  A session ends with one last event, followed by the end of the loop (`Session.Finished`).  `Course`
  follows this through the moves of a loop, beside the list of what has been told: while the session
  goes on, nothing terminal has been told; then the last event is due; and once it has been told, no
  other event can follow.  A frame that cannot be written is a shortcut from the first to the last.

  Most moves leave all of this alone, since the course is a matter of the effects, of the session
  being over, and of the loop being about to quit (`Course.congr`).  Three kinds of move do not.
  Handling a message may end the session, and then its farewell is all that is left to carry out.
  Carrying out an effect brings the loop one step on, be it the last event, the end of the loop or
  something ordinary (`Course.performed`).  And a store that breaks down takes what is left to carry
  out with it; but preferences are saved only while the session goes on, so no farewell is lost that
  way.

  The buffer keeps a terminal event whatever there is in it (`events_push_of_terminal`), and changes
  by what is told alone (`events_of_step`), so what has been told can be found there or has been
  taken.
-/

namespace TunnelBoard

namespace Core

open Session (Finished)

/-- How far a loop is on its way to the end, when it has told the events `told`. -/
inductive Course (c : Core) (told : List Event) : Prop where
  | going (ordinary : ∀ e ∈ told, e.isTerminal = false) (live : c.session.terminated = false)
      (nothing : ∀ e ∈ c.effects, e.isFinal = false) (quitting : c.quitting = false)
  /-- The last event is among what is still to be carried out. -/
  | due (ordinary : ∀ e ∈ told, e.isTerminal = false) (ended : c.session.terminated = true)
      (finished : Finished true c.effects) (stage : c.stage = .running) (quitting : c.quitting = false)
  /-- The last event has been told, and at most the loop is still to be ended. -/
  | gone {before : List Event} {e : Event} (is : told = before ++ [e]) (terminal : e.isTerminal = true)
      (ordinary : ∀ x ∈ before, x.isTerminal = false) (ended : c.session.terminated = true)
      (rest : (c.effects = [.quit] ∧ c.stage = .running ∧ c.quitting = false) ∨
        (c.effects = [] ∧ c.quitting = true))

variable {c c' : Core} {told : List Event}

/-- The course is a matter of the effects, and of whether session and loop are over. -/
theorem Course.congr (h : c.Course told) (hended : c'.session.terminated = c.session.terminated)
    (heffects : c'.effects = c.effects) (hquitting : c'.quitting = c.quitting)
    (hstage : c.stage = .running → c'.effects ≠ [] → c'.stage = .running) : c'.Course told := by
  cases h with
  | going ordinary live nothing quitting =>
    exact .going ordinary (hended.trans live) (heffects ▸ nothing) (hquitting.trans quitting)
  -- the last event is still to come, so something is left to be carried out
  | due ordinary ended finished stage quitting =>
    refine .due ordinary (hended.trans ended) (heffects ▸ finished) (hstage stage ?_)
      (hquitting.trans quitting)
    obtain ⟨before, e, hes, -⟩ := finished
    rw [heffects, hes]
    simp
  | gone is terminal ordinary ended rest =>
    refine .gone is terminal ordinary (hended.trans ended) ?_
    rcases rest with ⟨heff, hrun, hquit⟩ | ⟨heff, hquit⟩
    · exact Or.inl ⟨heffects.trans heff, hstage hrun (by rw [heffects, heff]; simp),
        hquitting.trans hquit⟩
    · exact Or.inr ⟨heffects.trans heff, hquitting.trans hquit⟩

/-- When a loop has nothing to carry out and is not to end, its session goes on. -/
theorem Course.live_of_idle (h : c.Course told) (heffects : c.effects = [])
    (hquitting : c.quitting = false) :
    c.session.terminated = false ∧ ∀ e ∈ told, e.isTerminal = false := by
  cases h with
  | going ordinary live => exact ⟨live, ordinary⟩
  | due ordinary ended finished =>
    obtain ⟨before, e, hes, -⟩ := finished
    rw [heffects] at hes
    simp at hes
  | gone is terminal ordinary ended rest =>
    rcases rest with ⟨heff, -⟩ | ⟨-, hquit⟩
    · rw [heffects] at heff
      exact nomatch heff
    · exact nomatch hquitting.symm.trans hquit

/-- To carry out an effect that ends nothing brings a loop on. -/
theorem Course.next (h : c.Course told) {e : Effect} {rest : List Effect} (he : c.effects = e :: rest)
    (hfinal : e.isFinal = false) :
    Course { c with effects := rest } (told ++ e.event?.toList) := by
  -- an event that is told now is an ordinary one, as all before it
  have hmore : (∀ x ∈ told, x.isTerminal = false) →
      ∀ x ∈ told ++ e.event?.toList, x.isTerminal = false := by
    intro ordinary x hx
    rcases List.mem_append.1 hx with hx | hx
    · exact ordinary x hx
    · cases e with
      | emit y =>
        cases List.mem_singleton.1 hx
        exact hfinal
      | quit | clearScreen | savePreferences | scheduleTick | scheduleLogTick | watchLog | fetchLogs
        | sampleTraffic | awaitContextEnd | awaitReady => exact absurd hx List.not_mem_nil
  cases h with
  | going ordinary live nothing quitting =>
    exact .going (hmore ordinary) live (fun x hx => nothing x (he ▸ List.mem_cons_of_mem _ hx))
      quitting
  | due ordinary ended finished stage quitting =>
    obtain ⟨before, x, hes, hterminal, hbefore⟩ := finished
    -- in the farewell only ordinary effects stand before the last event
    cases before with
    | nil =>
      rw [he] at hes
      cases hes
      exact nomatch hfinal.symm.trans hterminal
    | cons y before =>
      rw [he] at hes
      cases hes
      exact .due (hmore ordinary) ended
        ⟨before, x, rfl, hterminal, fun z hz => hbefore z (List.mem_cons_of_mem _ hz)⟩ stage quitting
  | gone is terminal ordinary ended rest =>
    rcases rest with ⟨heff, -⟩ | ⟨heff, -⟩
    · rw [he] at heff
      cases heff
      exact nomatch hfinal
    · rw [he] at heff
      exact nomatch heff

/-- Carrying out an effect that asks for nothing, be it the last one. -/
theorem Course.performed (h : c.Course told) {e : Effect} {rest : List Effect}
    (he : c.effects = e :: rest) :
    Course { c with effects := rest, quitting := c.quitting || e = .quit }
      (told ++ e.event?.toList) := by
  -- an effect that ends something is the last event, or the end of the loop behind it
  cases hfinal : e.isFinal with
  | false =>
    have hnext := h.next he hfinal
    have hsame : (c.quitting || decide (e = .quit)) = c.quitting := by
      cases e with
      | quit => exact nomatch hfinal
      | emit | clearScreen | savePreferences | scheduleTick | scheduleLogTick | watchLog | fetchLogs
        | sampleTraffic | awaitContextEnd | awaitReady => simp
    rw [hsame]
    exact hnext
  | true =>
    cases h with
    | going ordinary live nothing =>
      exact nomatch hfinal.symm.trans (nothing e (he ▸ List.mem_cons_self))
    | due ordinary ended finished stage quitting =>
      -- the last event itself, since nothing before it ends anything
      obtain ⟨before, x, hes, hterminal, hbefore⟩ := finished
      rw [he] at hes
      cases before with
      | cons y before =>
        cases hes
        exact nomatch hfinal.symm.trans (hbefore _ List.mem_cons_self)
      | nil =>
        cases hes
        refine .gone rfl hterminal ordinary ended (Or.inl ⟨rfl, stage, ?_⟩)
        simp [quitting]
    | gone is terminal ordinary ended rest =>
      rcases rest with ⟨heff, -⟩ | ⟨heff, -⟩
      · rw [he] at heff
        cases heff
        refine .gone ?_ terminal ordinary ended (Or.inr ⟨rfl, by simp⟩)
        rw [is]
        exact List.append_nil _
      · rw [he] at heff
        exact nomatch heff

/-- Every turn is a part of the course. -/
theorem Course.turn (h : c.Course told) (hs : c.Staged) {m : Move} (ht : c.Turn m c') :
    c'.Course (told ++ m.tells c.effects) := by
  have hsilent : m.tells c.effects = [] → c'.Course told → c'.Course (told ++ m.tells c.effects) := by
    intro hnone h'
    rwa [hnone, List.append_nil]
  have hperform : ∀ {e rest}, c.effects = e :: rest →
      Move.perform.tells c.effects = e.event?.toList := by
    intro e rest he
    rw [Move.tells, he]
    cases e with
    | emit | quit | clearScreen | savePreferences | scheduleTick | scheduleLogTick | watchLog
      | fetchLogs | sampleTraffic | awaitContextEnd | awaitReady => rfl
  cases ht with
  | @aside m aside =>
    refine hsilent ?_ h
    cases m with
    | place | stepWriter | takeEvent | signal | pass => rfl
    | perform | handle | failPaint | leave | close | finish | wake | lapse | post | receive | endScope
      | append | announce => exact nomatch aside
  | endedOutside | appended | announced | received | woke | lapsed | posted | dropped =>
    exact hsilent rfl (h.congr rfl rfl rfl fun hrun _ => hrun)
  -- a message is handled when nothing is left to carry out, so the session still goes on
  | @handled m rest queue stage effects quitting =>
    refine hsilent rfl ?_
    obtain ⟨hlive, hordinary⟩ := h.live_of_idle effects quitting
    have hchange := Session.update_change (hs.session.standing hlive) hlive m
    have hfinished := Session.finished_of_change hchange hlive
    cases hended : (c.session.update m).1.terminated with
    | false =>
      rw [hended] at hfinished
      exact .going hordinary hended hfinished quitting
    | true =>
      rw [hended] at hfinished
      exact .due hordinary hended hfinished stage quitting
  | performed effects =>
    rw [hperform effects]
    exact h.performed effects
  -- the store breaks down over preferences, and these are saved while the session goes on
  | brokeDown effects stage =>
    refine hsilent (by rw [hperform effects]; rfl) ?_
    obtain ⟨hlive, -⟩ := hs.saving _ (effects ▸ List.mem_cons_self)
    cases h with
    | going ordinary live nothing quitting =>
      exact .going ordinary live (fun e he => absurd he List.not_mem_nil) quitting
    | due ordinary ended => exact nomatch hlive.symm.trans ended
    | gone is terminal ordinary ended => exact nomatch hlive.symm.trans ended
  | began effects stage begins =>
    have hfinal : ∀ {e awaited stop}, Effect.Begins e awaited stop → e.isFinal = false := by
      intro e awaited stop hb
      cases hb with
      | tick | logTick | logChange | contextEnd | ready => rfl
    rw [hperform effects]
    exact (h.next effects (hfinal begins)).congr rfl rfl rfl fun hrun _ => hrun
  | asked effects stage asks =>
    have hfinal : ∀ {e m}, Effect.Asks c.ring e m → e.isFinal = false := by
      intro e m ha
      cases ha with
      | logs | traffic => rfl
    rw [hperform effects]
    exact (h.next effects (hfinal asks)).congr rfl rfl rfl fun hrun _ => hrun
  -- the frame cannot be written: the session is over at once, and says so itself
  | failed cause stage effects quitting =>
    obtain ⟨-, hordinary⟩ := h.live_of_idle effects quitting
    exact .gone rfl rfl hordinary rfl (Or.inr ⟨effects, rfl⟩)
  | left stage effects =>
    exact hsilent rfl (h.congr rfl rfl rfl fun _ hne => absurd effects hne)
  | closed stage =>
    have hne : c.stage ≠ .running := by rw [stage]; decide
    exact hsilent rfl (h.congr rfl rfl rfl fun hrun _ => absurd hrun hne)
  | finished stage =>
    have hne : c.stage ≠ .running := by rw [stage]; decide
    exact hsilent rfl (h.congr rfl rfl rfl fun hrun _ => absurd hrun hne)

/-- Whatever is told is told by a loop that runs, and when the end has not been told yet. -/
theorem Course.ordinary_of_tells (h : c.Course told) {m : Move} (ht : c.Turn m c') {e : Event}
    (he : m.tells c.effects = [e]) : c.stage = .running ∧ ∀ x ∈ told, x.isTerminal = false := by
  have hhead : ∀ {f rest}, c.effects = f :: rest → Move.perform.tells c.effects = [e] →
      f = .emit e := by
    intro f rest hf he
    rw [Move.tells, hf] at he
    cases f with
    | emit =>
      cases he
      rfl
    | quit | clearScreen | savePreferences | scheduleTick | scheduleLogTick | watchLog | fetchLogs
      | sampleTraffic | awaitContextEnd | awaitReady => exact nomatch he
  -- behind the last event nothing is left that tells anything
  have hperformed : ∀ {rest}, c.effects = .emit e :: rest → ∀ x ∈ told, x.isTerminal = false := by
    intro rest heffects
    cases h with
    | going ordinary => exact ordinary
    | due ordinary => exact ordinary
    | gone is terminal ordinary ended rest =>
      rcases rest with ⟨heff, -⟩ | ⟨heff, -⟩
      · exact nomatch heffects.symm.trans heff
      · exact nomatch heffects.symm.trans heff
  cases ht with
  | @aside m aside =>
    cases m with
    | place | stepWriter | takeEvent | signal | pass => exact nomatch he
    | perform | handle | failPaint | leave | close | finish | wake | lapse | post | receive | endScope
      | append | announce => exact nomatch aside
  | endedOutside | appended | announced | received | handled | left | closed | finished | woke | lapsed
    | posted | dropped => exact nomatch he
  | performed effects stage | brokeDown effects stage | began effects stage | asked effects stage =>
    have hemit := hhead effects he
    exact ⟨stage, hperformed (hemit ▸ effects)⟩
  | failed cause stage effects quitting => exact ⟨stage, (h.live_of_idle effects quitting).2⟩

/-- A loop is on its course from the start, be it that its session goes on or that it could not begin. -/
theorem course_start (config : Config) (prefs : Preferences) (logs : LogSource) (size : TerminalSize)
    (capacity : Nat) (store : PreferencesStore) (world : World) :
    (Loop.start (Session.make config prefs logs size) capacity store world).core.Course [] := by
  have hnone : ∀ e ∈ ([] : List Event), e.isTerminal = false := fun e he => absurd he List.not_mem_nil
  rw [core_start]
  rcases Session.begun_cases config prefs logs size with ⟨ht, -, hopening⟩ | ⟨ht, -, e, hopening⟩
  · rw [hopening]
    exact .going hnone ht (fun e he => absurd he List.not_mem_nil) rfl
  · rw [hopening]
    exact .due hnone ht (Session.finished_farewell rfl) rfl rfl

/-- A loop that tells nothing any more stays silent. -/
theorem silent_turn {m : Move} (ht : c.Turn m c') (h : c.stage = .closed ∨ c.stage = .done) :
    c'.stage = .closed ∨ c'.stage = .done := by
  have hnot : c.stage ≠ .running ∧ c.stage ≠ .ending := by
    rcases h with h | h
    · rw [h]
      decide
    · rw [h]
      decide
  cases ht with
  | aside | endedOutside | appended | announced | received | handled | performed | began | asked
    | failed | woke | lapsed | posted | dropped => exact h
  | brokeDown | closed => exact Or.inl rfl
  | finished => exact Or.inr rfl
  | left stage => exact absurd stage hnot.1

end Core

namespace Loop

variable {l l' : Loop}

/-- The buffer changes when something is told, and by that alone, apart from what the owner takes. -/
theorem events_of_step {m : Move} (hm : m ≠ .takeEvent) (h : l.step m = some l') :
    (m.tells l.effects = [] ∧ l'.events = l.events) ∨
      ∃ e, m.tells l.effects = [e] ∧ l'.events = (l.events.push e).1 := by
  have haside := aside_of_step h
  have hevents : l'.events = l'.margin.events := rfl
  rw [hevents]
  generalize l'.margin = g at haside
  cases haside with
  | @kept m still =>
    refine Or.inl ⟨?_, rfl⟩
    cases m with
    | handle | leave | finish | wake | lapse | post | receive | endScope | append | announce | pass =>
      rfl
    | place | perform | failPaint | close | stepWriter | takeEvent | signal => exact nomatch still
  -- only events come into the buffer, and they have a case of their own
  | @performed e rest effects still =>
    refine Or.inl ⟨?_, rfl⟩
    rw [Move.tells, effects]
    cases e with
    | emit | savePreferences => exact nomatch still
    | quit | clearScreen | scheduleTick | scheduleLogTick | watchLog | fetchLogs | sampleTraffic
      | awaitContextEnd | awaitReady => rfl
  | emitted effects =>
    refine Or.inr ⟨_, ?_, rfl⟩
    rw [Move.tells, effects]
    rfl
  | failed cause => exact Or.inr ⟨_, rfl, rfl⟩
  | took => exact absurd rfl hm
  | rang effects | saved effects =>
    refine Or.inl ⟨?_, rfl⟩
    rw [Move.tells, effects]
    rfl
  | put | wrote | closed | signalled => exact Or.inl ⟨rfl, rfl⟩

end Loop
end TunnelBoard
