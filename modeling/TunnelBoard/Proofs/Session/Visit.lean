import TunnelBoard.Proofs.Session.Passage
/-
  A visit to the logs screen, from one message to the next.

  What has ended stays so (`hasEnded_of_change`), and a message that brings a visit to its end also
  ends the waits of it (`visit_of_change`): no wait of an earlier visit goes on without a token that
  tells it to stop.  While the logs show, a message either has their lines asked for once more, or it
  is neither news of the log nor the way to another screen, and then the lines stay as they are unless
  it brings new ones (`reading_of_change`).

  A visit ends in two ways.  The operator goes to another screen, which ends the scope of the visit;
  or the monitor is taken down or stopped, which ends the scope of its activation.  The token of a
  visit is made of the two, so either of them will do (`cancelled_visit`).
-/

namespace TunnelBoard

/-- The lines that a message brings to the visit with a number. -/
def Message.lines? (k : Link) : Message → Option (List Text)
  | .result seq (.logsFetched n lines) => if (seq, n) = k then some lines else none
  | _ => none

/-- Lines for a visit are an answer with its two numbers. -/
theorem Message.lines?_eq_some {m : Message} {k : Link} {lines : List Text} :
    m.lines? k = some lines ↔ m = .result k.1 (.logsFetched k.2 lines) := by
  unfold lines?
  split
  · constructor
    · intro h
      split at h
      · rename_i hk
        cases hk
        cases h
        rfl
      · exact nomatch h
    · intro h
      cases h
      exact if_pos rfl
  · rename_i hother
    constructor
    · intro h
      exact nomatch h
    · intro h
      exact absurd h (hother _ _ _)

namespace Monitor

variable {r : Monitor}

/-! ## Scopes that have ended

A monitor keeps a list of the scopes that have ended on its behalf, and the session takes the list
over when the monitor is taken down.  Nothing is ever taken off these lists. -/

/-- Ending the waits of a monitor ends more, and nothing begins again by it. -/
theorem mem_ended_stopWaits {x : Scope} (h : x ∈ r.ended) : x ∈ r.stopWaits.ended :=
  List.mem_append_left _ (List.mem_append_left _ h)

/-- The scope of the activation ends with them. -/
theorem activation_mem_ended_stopWaits (r : Monitor) : .activation r.seq ∈ r.stopWaits.ended :=
  List.mem_append_left _ (List.mem_append_right _ List.mem_cons_self)

/-- What has ended stays so when a visit is told to stop. -/
theorem mem_ended_stopLogWait {x : Scope} (h : x ∈ r.ended) : x ∈ r.stopLogWait.ended :=
  List.mem_append_left _ h

/-- What has ended stays so when a screen is left. -/
theorem mem_ended_leaving {x : Scope} (h : x ∈ r.ended) : x ∈ r.leaving.ended := by
  unfold leaving
  split
  · exact mem_ended_stopLogWait h
  · exact h
  · exact h

/-- What has ended stays so when a screen is entered. -/
theorem mem_ended_entering (target : Screen) {x : Scope} (h : x ∈ r.ended) :
    x ∈ (r.entering target).ended := by
  cases target with
  | dataplane | settings => exact h
  | logs => exact mem_ended_stopLogWait h

/-- What has ended stays so when the screen is changed. -/
theorem mem_ended_switchScreen (target : Screen) {x : Scope} (h : x ∈ r.ended) :
    x ∈ (r.switchScreen target).1.ended := by
  by_cases hsame : target = r.screen
  · rw [hsame, switchScreen_self]
    exact h
  · rw [fst_switchScreen hsame]
    exact mem_ended_entering target (mem_ended_leaving h)

/-- Who leaves the logs ends the visit. -/
theorem logVisit_mem_ended_switchScreen (hp : r.Placed) (hs : r.Scoped) (hscreen : r.screen = .logs)
    {target : Screen} (hne : target ≠ r.screen) :
    .logVisit r.seq r.logSeq ∈ (r.switchScreen target).1.ended := by
  obtain ⟨v, hv⟩ := Option.isSome_iff_exists.1 (hp.visit.2 hscreen)
  obtain rfl := hs.visit v hv
  have hended : .logVisit r.seq r.logSeq ∈ r.leaving.ended := by
    unfold leaving
    rw [hscreen]
    exact List.mem_append_right _ (by simp [hv])
  rw [fst_switchScreen hne]
  exact mem_ended_entering target hended

end Monitor

namespace Session

variable {s s' : Session} {m : Message} {es : List Effect} {x : Scope}

/-- A scope has ended with a monitor that was taken down, or on behalf of the one that is up. -/
theorem hasEnded_iff : s.hasEnded x = true ↔ x ∈ s.ended ∨ ∃ r, s.monitor = some r ∧ x ∈ r.ended := by
  simp [hasEnded, Option.any_eq_true]

/-- Taking down a monitor ends its waits, and what had ended before stays so. -/
theorem hasEnded_of_stopMonitor (hended : s'.ended = s.stopMonitor.ended)
    (hx : x ∈ s.ended ∨ ∃ r, s.monitor = some r ∧ x ∈ r.stopWaits.ended) :
    s'.hasEnded x = true := by
  rw [hasEnded_iff, hended, stopMonitor_eq]
  refine Or.inl (List.mem_append.2 ?_)
  rcases hx with hx | ⟨r, hr, hx⟩
  · exact Or.inl hx
  · rw [hr]
    exact Or.inr hx

/-- What has ended stays so. -/
theorem hasEnded_of_change (h : s.Standing) (hc : Change s m s' es) (hx : s.hasEnded x = true) :
    s'.hasEnded x = true := by
  have hbefore := hasEnded_iff.1 hx
  -- to take the monitor down keeps what its waits had ended
  have hstop : x ∈ s.ended ∨ ∃ r, s.monitor = some r ∧ x ∈ r.stopWaits.ended := by
    rcases hbefore with hx | ⟨r, hr, hx⟩
    · exact Or.inl hx
    · exact Or.inr ⟨r, hr, Monitor.mem_ended_stopWaits hx⟩
  cases hc with
  | shown kept =>
    rw [hasEnded_iff, kept.ended]
    rcases hbefore with hx | ⟨r, hr, hx⟩
    · exact Or.inl hx
    · obtain ⟨r', hr', same⟩ := kept.exists_monitor hr
      exact Or.inr ⟨r', hr', same.ended ▸ hx⟩
  | picked | refreshed => exact hx
  | fetched lines monitor =>
    rcases hbefore with hx | ⟨r, hr, hx⟩
    · exact hasEnded_iff.2 (Or.inl hx)
    · cases monitor.symm.trans hr
      exact hasEnded_iff.2 (Or.inr ⟨_, rfl, hx⟩)
  | switched target monitor =>
    rcases hbefore with hx | ⟨r, hr, hx⟩
    · exact hasEnded_iff.2 (Or.inl hx)
    · cases monitor.symm.trans hr
      exact hasEnded_iff.2 (Or.inr ⟨_, rfl, Monitor.mem_ended_switchScreen target hx⟩)
  | activated a is phase =>
    -- nothing was up before it that could have ended anything
    have hnone := h.monitor_eq_none (by rw [phase]; decide)
    rcases hbefore with hx | ⟨r, hr, -⟩
    · exact hasEnded_iff.2 (Or.inl hx)
    · exact nomatch hnone.symm.trans hr
  | disconnected | reconfigured | broke | fatalShown => exact hasEnded_of_stopMonitor rfl hstop
  | exited =>
    rcases hbefore with hx | ⟨r, hr, hx⟩
    · exact hasEnded_iff.2 (Or.inl hx)
    · have hm : s.exit.1.monitor = some r.stopWaits := by rw [exit, hr]; rfl
      exact hasEnded_iff.2 (Or.inr ⟨_, hm, Monitor.mem_ended_stopWaits hx⟩)

/-- What has ended stays so, whether the session goes on or not. -/
theorem hasEnded_update (h : s.Scoped) (m : Message) (hx : s.hasEnded x = true) :
    (s.update m).1.hasEnded x = true := by
  cases ht : s.terminated with
  | true =>
    rw [update_of_terminated ht]
    exact hx
  | false => exact hasEnded_of_change (h.standing ht) (update_change (h.standing ht) ht m) hx

/-! ## The visit that goes on -/

/-- The waits of a visit end with it, and with the activation. -/
theorem cancelled_visit (r : Monitor) (ended : Scope → Bool) :
    (Chain.logs.stop (Chain.logs.link r)).cancelled ended =
      (ended (.logVisit r.seq r.logSeq) || ended (.activation r.seq)) := by
  simp [Chain.stop, Chain.link, Chain.number]

/-- A visit goes on, or the message that it ends with ends its waits. -/
theorem visit_of_change (h : s.Scoped) (ht : s.terminated = false) (hc : Change s m s' es)
    {r : Monitor} (hr : s.monitor = some r) (hscreen : r.screen = .logs) :
    (∃ r', s'.monitor = some r' ∧ Chain.logs.link r' = Chain.logs.link r) ∨
      (Chain.logs.stop (Chain.logs.link r)).cancelled s'.hasEnded = true := by
  -- each way out but one ends the activation, and the waits with it
  have hover : s'.hasEnded (.activation r.seq) = true →
      (Chain.logs.stop (Chain.logs.link r)).cancelled s'.hasEnded = true := by
    intro hx
    rw [cancelled_visit, hx, Bool.or_true]
  have hdown : s'.ended = s.stopMonitor.ended → s'.hasEnded (.activation r.seq) = true := by
    intro hended
    exact hasEnded_of_stopMonitor hended (Or.inr ⟨r, hr, r.activation_mem_ended_stopWaits⟩)
  cases hc with
  | shown kept =>
    obtain ⟨r', hr', same⟩ := kept.exists_monitor hr
    exact Or.inl ⟨r', hr', same.link _⟩
  | picked | refreshed => exact Or.inl ⟨r, hr, rfl⟩
  | fetched lines monitor =>
    cases monitor.symm.trans hr
    exact Or.inl ⟨_, rfl, rfl⟩
  | switched target monitor other =>
    -- the only way out that keeps the activation: the visit alone has ended
    cases monitor.symm.trans hr
    have hended :=
      Monitor.logVisit_mem_ended_switchScreen (h.placed ht hr) (h.monitor r hr) hscreen other
    refine Or.inr ?_
    rw [cancelled_visit, Bool.or_eq_true, hasEnded_iff]
    exact Or.inl (Or.inr ⟨_, rfl, hended⟩)
  | activated a is phase =>
    have hnone := (h.standing ht).monitor_eq_none (by rw [phase]; decide)
    exact nomatch hnone.symm.trans hr
  | disconnected | reconfigured | broke | fatalShown => exact Or.inr (hover (hdown rfl))
  | exited =>
    have hm : s.exit.1.monitor = some r.stopWaits := by rw [exit, hr]; rfl
    exact Or.inr (hover (hasEnded_iff.2 (Or.inr ⟨_, hm, r.activation_mem_ended_stopWaits⟩)))

/-! ## The lines that show

A monitor that shows the logs has just come there or was told of new lines, and then it asks for them
with the same message; or it showed the logs before, and goes on with its lines or with those that the
message brings. -/

variable {e : Effect} {k : Link}

/-- Lines are asked for on behalf of the monitor that is up, and as the session was told to. -/
theorem fetchLogs_of_mem_update (h : s.Scoped) (ht : s.terminated = false)
    (he : e ∈ (s.update m).2.flatten) (hk : Chain.logs.ofRequest? e = some k) :
    ∃ r, (s.update m).1.monitor = some r ∧
      e = .fetchLogs r.seq r.logSeq s.logs.feed s.settings.logTailLines := by
  have hscoped := h.update m
  obtain ⟨r, hr, ht', hmem⟩ := mem_round_of_update h ht he (kind_of_link (Or.inr hk))
  have hstep := ((hscoped.standing ht').monitor r hr).2
  obtain ⟨-, hlogs, hsettings⟩ := (update_change (h.standing ht) ht m).constants
  have hfetch :=
    Monitor.request_of_mem_round (hscoped.placed ht' hr) (hscoped.monitor r hr) hmem hk
  rw [hstep.logs, hstep.settings, hlogs, hsettings] at hfetch
  exact ⟨r, hr, hfetch⟩

/-- A log that tells of new lines is watched on behalf of the monitor that is up. -/
theorem watchLog_of_mem_update (h : s.Scoped) (ht : s.terminated = false)
    (ho : s.logs.observable = true) (he : e ∈ (s.update m).2.flatten)
    (hk : Chain.logs.ofEffect? e = some k) :
    ∃ r stop, (s.update m).1.monitor = some r ∧ e = .watchLog r.seq r.logSeq stop := by
  have hscoped := h.update m
  obtain ⟨r, hr, ht', hmem⟩ := mem_round_of_update h ht he (kind_of_link (Or.inl hk))
  have hlogs := (update_change (h.standing ht) ht m).constants.2.1
  have ho' : r.logs.observable = true := by
    rw [((hscoped.standing ht').monitor r hr).2.logs, hlogs]
    exact ho
  have hwatch :=
    Monitor.watchLog_of_mem_round (hscoped.placed ht' hr) (hscoped.monitor r hr) ho' hmem hk
  exact ⟨r, _, hr, hwatch⟩

/-- What a message means for a monitor that shows the logs after it. -/
inductive Reading (s : Session) (m : Message) (r' : Monitor) (es : List Effect) : Prop where
  /-- The lines are asked for. -/
  | asked (mem : .fetchLogs r'.seq r'.logSeq r'.logs.feed r'.settings.logTailLines ∈ es)
  /-- The visit was going on.  The message is no news for it, but it may bring lines. -/
  | kept {r : Monitor} (before : s.monitor = some r) (link : Chain.logs.link r' = Chain.logs.link r)
      (screen : r.screen = .logs) (unheeded : Chain.logs.ofMessage? m ≠ some (Chain.logs.link r))
      (lines : r'.logLines = (m.lines? (Chain.logs.link r)).getD r.logLines)

/-- A monitor that shows the logs after a message has asked for the lines, or it showed them before. -/
theorem reading_of_change (h : s.Standing) (hc : Change s m s' es) {r' : Monitor}
    (hr' : s'.monitor = some r') (hscreen : r'.screen = .logs) (hgoing : r'.isStopped = false) :
    Reading s m r' es := by
  cases hc with
  | shown kept silent saving unheeded dropped =>
    cases hr : s.monitor with
    | none => cases (kept.monitor_eq_none hr).symm.trans hr'
    | some r =>
      obtain ⟨q, hq, same⟩ := kept.exists_monitor hr
      cases hq.symm.trans hr'
      have hlogs : r.screen = .logs := same.screen.symm.trans hscreen
      -- current lines would not have been dropped
      have hnone : m.lines? (Chain.logs.link r) = none := by
        rw [Option.eq_none_iff_forall_ne_some]
        intro lines hlines
        exact dropped r lines hr (Message.lines?_eq_some.1 hlines)
      refine .kept hr (same.link _) hlogs (fun hm => unheeded .logs r hr hm hlogs) ?_
      rw [hnone]
      exact same.logLines
  | picked mode mem phase =>
    have hnone := h.monitor_eq_none (by rw [phase]; decide)
    cases hnone.symm.trans hr'
  | refreshed c monitor =>
    cases monitor.symm.trans hr'
    exact .asked (Monitor.fetchLogs_mem_round hscreen)
  | @fetched r lines monitor answer =>
    cases hr'
    have hlines : m.lines? (Chain.logs.link r) = some lines := Message.lines?_eq_some.2 answer
    refine .kept monitor rfl hscreen (fun hm => ?_) ?_
    · rw [answer] at hm
      cases hm
    · rw [hlines]
      rfl
  | switched target =>
    cases hr'
    exact .asked (Monitor.fetchLogs_mem_round hscreen)
  | activated a is phase start =>
    cases hr'
    rw [start] at hscreen
    cases hscreen
  | disconnected | reconfigured | broke | fatalShown =>
    simp only [disconnect, showFatal, stopMonitor_eq] at hr'
    cases hr'
  | exited =>
    obtain ⟨r, -, rfl⟩ := Option.map_eq_some_iff.1 hr'
    cases (Monitor.isStopped_stopWaits r).symm.trans hgoing

end Session
end TunnelBoard
