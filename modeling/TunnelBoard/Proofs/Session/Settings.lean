import TunnelBoard.Proofs.Session.Change
/-
  Changes of the settings.

  A setting is changed by a key on the settings screen.  `Session.changed?` says when, and to what
  preferences that leads; preferences that come from outside are no such change.  Each change asks for
  one save, of the preferences that session and monitor have from then on, and nothing else asks for a
  save (`saves_update`, `prefs_of_changed`).

  What is counted are the effects that save, in order (`Effect.saved?`), among all effects that a
  message asks for.  Most operations ask for none, because their effects are of another kind
  (`saves_of_kind`), so the argument goes down from messages to actions, from there to the keys of the
  monitor, and ends at the one operation that does ask for one (`saves_changeSetting`).
-/

namespace TunnelBoard

/-- The preferences that an effect saves, if it does. -/
def Effect.saved? : Effect → Option Preferences
  | savePreferences p => some p
  | _ => none

/-- The direction in which an action turns a setting, if it does. -/
def Action.turns? : Action → Option Bool
  | left => some false
  | right | select | space => some true
  | _ => none

/-- Effects that save nothing. -/
theorem saves_of_kind {es : List Effect} (h : ∀ e ∈ es, e.kind ≠ .silent) :
    es.filterMap Effect.saved? = [] := by
  refine List.filterMap_eq_nil_iff.2 fun e he => ?_
  cases e with
  | clearScreen | savePreferences => exact absurd rfl (h _ he)
  | emit | quit | scheduleTick | scheduleLogTick | watchLog | fetchLogs | sampleTraffic
    | awaitContextEnd | awaitReady => rfl

/-- A round asks for no save. -/
theorem saves_round (r : Monitor) : r.round.filterMap Effect.saved? = [] :=
  saves_of_kind fun e he => by rw [Session.kind_of_mem_round he]; decide

namespace Monitor

/-- The preferences that an action changes the settings to, if it does: on the settings screen, while no
    question is open. -/
def changed? (r : Monitor) (action : Action) : Option Preferences :=
  if r.confirm = none ∧ r.screen = .settings then
    action.turns?.map fun forward => r.row.change forward r.prefs
  else none

variable {r : Monitor}

/-- To change the screen saves nothing. -/
theorem saves_switchScreen (r : Monitor) (target : Screen) :
    (r.switchScreen target).2.flatten.filterMap Effect.saved? = [] := by
  by_cases htarget : target = r.screen
  · rw [htarget, switchScreen_self, Command.flatten_none]
    rfl
  · rw [flatten_switchScreen htarget]
    exact saves_round _

/-- To change a setting asks for one save. -/
theorem saves_changeSetting (r : Monitor) (forward : Bool) :
    (r.changeSetting forward).command.flatten.filterMap Effect.saved? =
      [r.row.change forward r.prefs] := by
  simp only [changeSetting]
  rw [Command.flatten_ofList, List.flatMap_cons, Command.flatten_one, List.filterMap_append]
  -- the other effect paints anew, if it is asked for at all
  split
  · rw [List.flatMap_singleton, Command.flatten_one]
    rfl
  · rfl

/-- What a key does that asks for a save: it changes a setting, and tells the session so. -/
theorem handleKey_of_changed {action : Action} {p : Preferences} (h : r.changed? action = some p) :
    ∃ forward, p = r.row.change forward r.prefs ∧ r.handleKey action = r.changeSetting forward := by
  unfold changed? at h
  split at h
  · rename_i hready
    obtain ⟨forward, hturns, rfl⟩ := Option.map_eq_some_iff.1 h
    refine ⟨forward, rfl, ?_⟩
    unfold handleKey
    rw [hready.1, hready.2]
    cases action with
    | left | right | select | space =>
      cases hturns
      rfl
    | up | down | back | quit | nextTab | prevTab | pageUp | pageDown | first | last =>
      exact nomatch hturns
  · exact nomatch h

/-- A key that changes no setting saves nothing. -/
theorem saves_of_not_changed {action : Action} (h : r.changed? action = none) :
    (r.handleKey action).command.flatten.filterMap Effect.saved? = [] := by
  have hquiet : ∀ q : Monitor, (quiet q).command.flatten.filterMap Effect.saved? = [] := by
    intro q
    simp only [quiet, Command.flatten_none]
    rfl
  unfold handleKey
  cases hconfirm : r.confirm with
  | some choice =>
    -- an open question takes the key, and its answer saves nothing
    cases action with
    | select =>
      cases choice with
      | stop | goOn => exact hquiet r
    | up | down | left | right | back | quit | nextTab | prevTab | pageUp | pageDown | first | last
      | space => exact hquiet _
  | none =>
    cases hscreen : r.screen with
    | dataplane =>
      cases action with
      | nextTab | prevTab => exact saves_switchScreen r _
      | select | back => exact hquiet _
      | up | down | left | right | quit | pageUp | pageDown | first | last | space => exact hquiet r
    | settings =>
      cases action with
      | left | right | select | space =>
        rw [changed?, if_pos ⟨hconfirm, hscreen⟩] at h
        cases h
      | nextTab | prevTab | back => exact saves_switchScreen r _
      | up | down | first | last => exact hquiet _
      | quit | pageUp | pageDown => exact hquiet r
    | logs =>
      cases action with
      | nextTab | prevTab | back => exact saves_switchScreen r _
      | up | down | pageUp | pageDown | first | last | space => exact hquiet _
      | left | right | select | quit => exact hquiet r

/-- A result saves nothing, whatever it is of. -/
theorem saves_handleResult (r : Monitor) (result : TaskResult) :
    (r.handleResult result).2.flatten.filterMap Effect.saved? = [] := by
  have htimer : ∀ {c : Chain} {k : Link}, c.ofMessage? (.result r.seq result) = some k →
      (r.handleResult result).2.flatten.filterMap Effect.saved? = [] := by
    intro c k hk
    rw [(handleResult_timer hk).2]
    split
    · exact saves_round r
    · rfl
  -- answers of a timer begin a round, the others ask for nothing
  cases result with
  | tick n => exact htimer (c := .ticks) rfl
  | logTick n => exact htimer (c := .logs) rfl
  | logsChanged n => exact htimer (c := .logs) rfl
  | ready | trafficSampled | logsFetched =>
    simp only [handleResult, Command.flatten_none]
    rfl

end Monitor

namespace Session

/-- The preferences that a message changes the settings to, if it does. -/
def changed? (s : Session) : Message → Option Preferences
  | .key k =>
    if s.terminated = false ∧ s.phase = .runtime then
      k.action?.bind fun action => s.monitor.bind (·.changed? action)
    else none
  | _ => none

variable {s : Session} {m : Message}

/-- To say farewell saves nothing. -/
theorem saves_told (e : Event) : (farewell e).flatten.filterMap Effect.saved? = [] := by
  rw [flatten_farewell]
  rfl

/-- Neither does going back to the choice of a mode. -/
theorem saves_reconfigure (s : Session) : s.reconfigure.2.flatten.filterMap Effect.saved? = [] := by
  unfold reconfigure
  split
  · rw [Command.flatten_one]
    rfl
  · exact saves_told _

/-- Nothing that is done in the picker saves anything. -/
theorem saves_pick (s : Session) (action : Action) :
    (s.pick action).2.flatten.filterMap Effect.saved? = [] := by
  unfold pick
  split
  · rw [Command.flatten_none]
    rfl
  · split
    · rw [Command.flatten_none]
      rfl
    · rw [Command.flatten_one]
      rfl
    · exact saves_told _

/-- On the monitor, an action asks for what its key asks for. -/
theorem saves_operate (s : Session) (action : Action) :
    (s.operate action).2.flatten.filterMap Effect.saved? =
      (s.monitor.bind (·.changed? action)).toList := by
  unfold operate
  cases hr : s.monitor with
  | none =>
    simp only [Command.flatten_none]
    rfl
  | some r =>
    have hkey : (r.handleKey action).command.flatten.filterMap Effect.saved? =
        (r.changed? action).toList := by
      -- whether the key changes a setting decides it, whatever else it does
      cases hc : r.changed? action with
      | none => exact Monitor.saves_of_not_changed hc
      | some p =>
        obtain ⟨forward, rfl, hchange⟩ := Monitor.handleKey_of_changed hc
        rw [hchange]
        exact r.saves_changeSetting forward
    simp only [Option.bind_some]
    split
    · exact hkey
    · exact hkey
    · -- a monitor that stops asks for more, but for no save
      rw [Command.flatten_ofList, List.flatMap_cons, List.flatMap_singleton, List.filterMap_append,
        saves_reconfigure, List.append_nil]
      exact hkey

/-- Leaving saves nothing, and neither does what happens instead. -/
theorem saves_exit_or {leaves : Prop} [Decidable leaves] {next : Session × Command Effect}
    (h : next.2.flatten.filterMap Effect.saved? = []) :
    (if leaves then s.exit else next).2.flatten.filterMap Effect.saved? = [] := by
  split
  · exact saves_told _
  · exact h

/-- Only on the monitor does an action save something. -/
theorem saves_handleAction (s : Session) (action : Action) :
    (s.handleAction action).2.flatten.filterMap Effect.saved? =
      if s.phase = .runtime then (s.monitor.bind (·.changed? action)).toList else [] := by
  have hstill : (s, (Command.none : Command Effect)).2.flatten.filterMap Effect.saved? = [] := by
    rw [Command.flatten_none]
    rfl
  unfold handleAction
  cases hphase : s.phase with
  | runtime =>
    rw [if_pos rfl]
    dsimp only
    split
    · -- to leave is no change of a setting
      rename_i hquit
      rw [hquit]
      have hnone : s.monitor.bind (·.changed? .quit) = none := by
        cases s.monitor with
        | none => rfl
        | some r =>
          show r.changed? .quit = none
          unfold Monitor.changed?
          split
          · rfl
          · rfl
      rw [hnone]
      exact saves_told _
    · exact saves_operate s action
  | configuring => exact saves_exit_or (saves_pick s action)
  | waiting | fatal => exact saves_exit_or hstill

/-- **One save for each change**, and no other. -/
theorem saves_update (s : Session) (m : Message) :
    (s.update m).2.flatten.filterMap Effect.saved? = (s.changed? m).toList := by
  cases ht : s.terminated with
  | true =>
    rw [update_of_terminated ht, Command.flatten_none]
    cases m with
    | key k =>
      rw [changed?, if_neg fun h => by cases ht.symm.trans h.1]
      rfl
    | resize | activate | contextEnded | result | showFatal | preferencesChanged | close => rfl
  | false =>
    unfold update
    rw [if_neg (by rw [ht]; decide)]
    -- of all messages only keys change a setting
    cases m with
    | key k =>
      dsimp only [changed?]
      cases k.action? with
      | none =>
        rw [Command.flatten_none]
        split
        · rfl
        · rfl
      | some action =>
        have haction := saves_handleAction s action
        dsimp only
        rw [haction]
        by_cases hphase : s.phase = .runtime
        · rw [if_pos hphase, if_pos ⟨ht, hphase⟩]
          rfl
        · rw [if_neg hphase, if_neg fun h => hphase h.2]
          rfl
    | resize size =>
      rw [Command.flatten_one]
      rfl
    | activate a =>
      dsimp only [activate]
      split
      · rw [Command.flatten_none]
        rfl
      · rw [Monitor.flatten_start, List.filterMap_append, saves_round, List.append_nil]
        exact saves_of_kind fun e he => by rw [kind_of_mem_waits he]; decide
    | contextEnded seq =>
      dsimp only
      split
      · rw [disconnect, Command.flatten_one]
        rfl
      · rw [Command.flatten_none]
        rfl
    | result seq result =>
      dsimp only [handleResult]
      split
      · rename_i r _ _
        exact r.saves_handleResult result
      · rw [Command.flatten_none]
        rfl
    | showFatal report =>
      dsimp only [showFatal]
      rw [Command.flatten_none]
      rfl
    | preferencesChanged p =>
      dsimp only [setPreferences]
      split
      · rw [Command.flatten_one]
        rfl
      · rw [Command.flatten_none]
        rfl
    | close => exact saves_told _

/-- What a setting is changed to is what session and monitor have from then on. -/
theorem prefs_of_changed {p : Preferences} (h : s.changed? m = some p) :
    (s.update m).1.prefs = p ∧ ∃ r, (s.update m).1.monitor = some r ∧ r.prefs = p := by
  cases m with
  | key k =>
    simp only [changed?] at h
    split at h
    · rename_i hlive
      obtain ⟨action, hk, h⟩ := Option.bind_eq_some_iff.1 h
      obtain ⟨r, hr, hchanged⟩ := Option.bind_eq_some_iff.1 h
      obtain ⟨forward, rfl, hkey⟩ := Monitor.handleKey_of_changed hchanged
      have hquit : action ≠ .quit := by
        rintro rfl
        unfold Monitor.changed? at hchanged
        split at hchanged
        · cases hchanged
        · cases hchanged
      -- the state behind the key, written out
      have hupdate : (s.update (.key k)).1 =
          { s with prefs := r.row.change forward r.prefs
                   monitor := some (r.setPreferences (r.row.change forward r.prefs)) } := by
        unfold update
        rw [if_neg (by rw [hlive.1]; decide)]
        simp only [hk, handleAction, hlive.2, if_neg hquit, operate, hr, hkey, Monitor.changeSetting]
      rw [hupdate]
      exact ⟨rfl, _, rfl, rfl⟩
    · cases h
  | resize | activate | contextEnded | result | showFatal | preferencesChanged | close =>
    cases h

end Session
end TunnelBoard
