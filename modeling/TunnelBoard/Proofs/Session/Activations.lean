import TunnelBoard.Proofs.Session.Passage
/-
  The activations of a session, one after the other.

  Each activation that is taken gets the next number, and what is done on its behalf carries that
  number.  `Succession` says what one message means for the row of activations: either it takes the
  next one, or the monitor that is up afterwards was up before and is as well connected as it was, but
  for the one message that says that its data plane is there.  A message that carries another number
  than that of the monitor changes nothing (`update_of_stale`), and the loss of a data plane is told
  when its own end is reported, and at no other time (`losses_cases`).

  Most operations only have to be looked at for two things, the number and the connection of the
  monitor (`Continued`).  The effects of a message are looked at in the same spirit: those that carry
  a number carry the one of the monitor that is up afterwards (`seq?_of_mem_update`), and the waits
  for a data plane are begun by the message that hands it over (`waits_of_mem_update`).
-/

namespace TunnelBoard

/-- The activation that a message is about, if it is the result of a task. -/
def Message.seq? : Message → Option Nat
  | contextEnded seq => some seq
  | result seq _ => some seq
  | _ => none

/-- The activation that an effect is carried out for, if it is for one. -/
def Effect.seq? : Effect → Option Nat
  | scheduleTick seq _ _ _ => some seq
  | scheduleLogTick seq _ _ _ => some seq
  | watchLog seq _ _ => some seq
  | fetchLogs seq _ _ _ => some seq
  | sampleTraffic seq _ => some seq
  | awaitContextEnd seq _ _ => some seq
  | awaitReady seq _ _ => some seq
  | _ => none

namespace Monitor

variable {r : Monitor}

/-- No key connects a monitor, or cuts it off. -/
theorem connected_handleKey (r : Monitor) (action : Action) :
    (r.handleKey action).monitor.seq = r.seq ∧
      (r.handleKey action).monitor.connected = r.connected := by
  have hdeed := r.handleKey_deed action
  generalize r.handleKey action = u at hdeed ⊢
  cases hdeed with
  | shown same prefs size connected => exact ⟨same.seq, connected⟩
  | switched target =>
    obtain ⟨hseq, -, -, -, -, -, -, hconnected⟩ := r.switchScreen_frame target
    exact ⟨hseq, hconnected⟩
  | changed | stopped => exact ⟨rfl, rfl⟩

/-- A result connects a monitor if it says that the data plane is there, and none cuts it off. -/
theorem connected_handleResult (r : Monitor) (result : TaskResult) :
    (r.handleResult result).1.seq = r.seq ∧
      (r.handleResult result).1.connected = (r.connected || decide (result = .ready)) := by
  have hrecord : ∀ traffic, (r.record traffic).seq = r.seq ∧
      (r.record traffic).connected = r.connected := by
    intro traffic
    unfold record
    split
    · exact ⟨rfl, rfl⟩
    · exact ⟨rfl, rfl⟩
  -- only the first of these touches the connection
  cases result with
  | ready => simp [handleResult]
  | tick tickSeq =>
    simp only [handleResult]
    split
    · simp
    · simp
  | trafficSampled tickSeq traffic =>
    simp only [handleResult]
    split
    · simpa using hrecord traffic
    · simp
  | logTick logSeq | logsChanged logSeq => simp [handleResult]
  | logsFetched logSeq lines =>
    simp only [handleResult]
    split
    · simp [showLines, clampScroll]
    · simp

/-- A round is for the activation of its monitor. -/
theorem seq?_of_mem_round (h : r.Placed) (hs : r.Scoped) {e : Effect} (he : e ∈ r.round) :
    e.seq? = some r.seq := by
  cases inRound_of_mem h hs he with
  | sample | tick | fetch | watch | logTick => rfl

end Monitor

namespace Session

/-- The activation that a message hands over, if the session takes it. -/
def accepted (s : Session) : Message → List Activation
  | .activate a => if s.terminated = false ∧ s.phase = .waiting then [a] else []
  | _ => []

/-- The activations whose loss is told in answer to a message, one number for each time. -/
def losses (s : Session) (m : Message) : List Nat :=
  ((s.update m).2.flatten.filter (· = .emit .runtimeDisconnected)).map fun _ => s.activationSeq

variable {s s' : Session} {m : Message}

/-! ## What is out of date -/

/-- A result for any activation but the one whose monitor is up changes nothing and asks for
    nothing. -/
theorem update_of_stale (h : s.Scoped) {k : Nat} (hk : m.seq? = some k)
    (hstale : s.terminated = true ∨ ∀ r, s.monitor = some r → r.seq ≠ k) :
    s.update m = (s, .none) := by
  cases ht : s.terminated with
  | true => exact update_of_terminated ht m
  | false =>
    have hother : ∀ r, s.monitor = some r → r.seq ≠ k := by
      rcases hstale with hover | hother
      · cases ht.symm.trans hover
      · exact hother
    -- only the activation whose monitor is up can be live
    have hnot : s.isLive k = false := by
      cases hlive : s.isLive k with
      | false => rfl
      | true =>
        simp only [isLive, Bool.and_eq_true, decide_eq_true_eq] at hlive
        obtain ⟨r, hr⟩ := (h.standing ht).exists_monitor hlive.1
        exact absurd ((h.seq r hr).trans hlive.2.symm) (hother r hr)
    unfold update
    rw [if_neg (by rw [ht]; decide)]
    cases m with
    | contextEnded seq =>
      cases hk
      simp only [hnot]
      rfl
    | result seq result =>
      cases hk
      simp only [handleResult, hnot]
    | key | resize | activate | showFatal | preferencesChanged | close => cases hk

/-! ## From one activation to the next

No monitor is up while an activation is waited for, and that is when one is taken.  So the row of
activations goes on in two ways: one is added and its monitor comes up, or none is added and a monitor
that is up was up before. -/

/-- The same activations have been taken, and a monitor that is up was up before, as well connected. -/
structure Continued (s s' : Session) : Prop where
  seq : s'.activationSeq = s.activationSeq
  monitor : ∀ r', s'.monitor = some r' →
    ∃ r, s.monitor = some r ∧ r'.seq = r.seq ∧ r'.connected = r.connected

/-- Nothing at all may happen. -/
theorem Continued.refl (s : Session) : s.Continued s :=
  ⟨rfl, fun r hr => ⟨r, hr, rfl, rfl⟩⟩

/-- A monitor may be taken down. -/
theorem Continued.of_none (hseq : s'.activationSeq = s.activationSeq) (hm : s'.monitor = none) :
    s.Continued s' :=
  ⟨hseq, fun _ hr => nomatch hm.symm.trans hr⟩

/-- A monitor may be changed in anything but its number and its connection. -/
theorem Continued.of_map {f : Monitor → Monitor}
    (hf : ∀ r, (f r).seq = r.seq ∧ (f r).connected = r.connected)
    (hseq : s'.activationSeq = s.activationSeq) (hm : s'.monitor = s.monitor.map f) :
    s.Continued s' := by
  refine ⟨hseq, fun r' hr' => ?_⟩
  rw [hm] at hr'
  obtain ⟨r, hr, rfl⟩ := Option.map_eq_some_iff.1 hr'
  exact ⟨r, hr, hf r⟩

/-- To leave ends the waits of a monitor. -/
theorem continued_exit (s : Session) : s.Continued s.exit.1 :=
  .of_map (f := Monitor.stopWaits) (fun _ => ⟨rfl, rfl⟩) rfl rfl

/-- To choose again takes it down. -/
theorem continued_reconfigure (s : Session) : s.Continued s.reconfigure.1 := by
  unfold reconfigure
  split
  · exact .of_none (by simp only [stopMonitor_eq]) (by simp only [stopMonitor_eq])
  · exact .of_none (by simp only [stopMonitor_eq]) (by simp only [stopMonitor_eq])

/-- Picking a mode takes no activation. -/
theorem continued_pick (s : Session) (action : Action) : s.Continued (s.pick action).1 := by
  have hsame : ∀ {t : Session}, t.activationSeq = s.activationSeq → t.monitor = s.monitor →
      s.Continued t := fun hseq hm =>
    ⟨hseq, fun r hr => ⟨r, hm.symm.trans hr, rfl, rfl⟩⟩
  unfold pick
  split
  · exact .refl s
  · split
    · exact hsame rfl rfl
    · exact hsame rfl rfl
    · exact continued_exit s

/-- Keys for the monitor leave its number and its connection alone. -/
theorem continued_operate (s : Session) (action : Action) : s.Continued (s.operate action).1 := by
  unfold operate
  cases hr : s.monitor with
  | none => exact .refl s
  | some r =>
    obtain ⟨hseq, hconnected⟩ := r.connected_handleKey action
    have hkey : ∀ {t : Session}, t.activationSeq = s.activationSeq →
        t.monitor = some (r.handleKey action).monitor → s.Continued t := fun hnumber hm =>
      ⟨hnumber, fun r' hr' => ⟨r, hr, by cases hm.symm.trans hr'; exact ⟨hseq, hconnected⟩⟩⟩
    dsimp only
    split
    · exact hkey rfl rfl
    · exact hkey rfl rfl
    · -- the monitor is taken down, whatever the key made of it
      have hdown := continued_reconfigure { s with monitor := some (r.handleKey action).monitor }
      refine ⟨hdown.seq, fun r' hr' => ?_⟩
      obtain ⟨q, hq, hqseq, hqconnected⟩ := hdown.monitor r' hr'
      cases hq
      exact ⟨r, hr, hqseq.trans hseq, hqconnected.trans hconnected⟩

/-- No action takes an activation, and a monitor that stays up keeps its number and its connection. -/
theorem continued_handleAction (s : Session) (action : Action) :
    s.Continued (s.handleAction action).1 := by
  unfold handleAction
  split
  · split
    · exact continued_exit s
    · exact continued_pick s action
  · split
    · exact continued_exit s
    · exact .refl s
  · split
    · exact continued_exit s
    · exact continued_operate s action
  · split
    · exact continued_exit s
    · exact .refl s

/-- What a message means for the row of activations. -/
inductive Succession (s : Session) (m : Message) (s' : Session) : Prop where
  /-- No activation is taken.  A monitor that is up was up before. -/
  | stayed (none : s.accepted m = []) (seq : s'.activationSeq = s.activationSeq)
      (monitor : ∀ r', s'.monitor = some r' → ∃ r, s.monitor = some r ∧ r'.seq = r.seq ∧
        (r.connected = true → r'.connected = true) ∧
        (r'.connected = true → r.connected = true ∨ m = .result r.seq .ready))
  /-- An activation is taken.  It is connected at once if it has nothing to wait for. -/
  | began {a : Activation} {r' : Monitor} (one : s.accepted m = [a])
      (seq : s'.activationSeq = s.activationSeq + 1) (monitor : s'.monitor = some r')
      (number : r'.seq = s.activationSeq + 1) (connected : r'.connected = a.ready.isNone)

/-- Such a change is no new activation. -/
theorem Continued.succession (h : s.Continued s') (hm : s.accepted m = []) :
    Succession s m s' := by
  refine .stayed hm h.seq fun r' hr' => ?_
  obtain ⟨r, hr, hseq, hconnected⟩ := h.monitor r' hr'
  exact ⟨r, hr, hseq, fun hc => hconnected.trans hc, fun hc => Or.inl (hconnected.symm.trans hc)⟩

/-- An activation is taken while one is waited for. -/
theorem succession_activate (ht : s.terminated = false) (a : Activation) :
    Succession s (.activate a) (s.activate a).1 := by
  unfold activate
  split
  · rename_i hphase
    exact (Continued.refl s).succession (if_neg fun h => hphase h.2)
  · rename_i hphase
    exact .began (if_pos ⟨ht, Decidable.not_not.1 hphase⟩) rfl rfl rfl rfl

/-- A result may connect the monitor it is for. -/
theorem succession_handleResult (h : s.Scoped) (seq : Nat) (result : TaskResult) :
    Succession s (.result seq result) (s.handleResult seq result).1 := by
  unfold handleResult
  split
  · rename_i r hlive hr
    obtain ⟨hsame, hconnected⟩ := r.connected_handleResult result
    refine .stayed rfl rfl fun r' hr' => ⟨r, hr, ?_⟩
    obtain rfl : (r.handleResult result).1 = r' := Option.some.inj hr'
    refine ⟨hsame, fun hc => by rw [hconnected, hc, Bool.true_or], fun hc => ?_⟩
    rw [hconnected, Bool.or_eq_true, decide_eq_true_eq] at hc
    refine hc.imp_right fun hready => ?_
    -- a result that is let in carries the number of the last activation
    simp only [isLive, Bool.and_eq_true, decide_eq_true_eq] at hlive
    rw [hready, h.seq r hr, hlive.2]
  · exact (Continued.refl s).succession rfl

/-- Every message is one of the two. -/
theorem succession_update (h : s.Scoped) (m : Message) : Succession s m (s.update m).1 := by
  cases ht : s.terminated with
  | true =>
    rw [update_of_terminated ht]
    refine (Continued.refl s).succession ?_
    unfold accepted
    split
    · refine if_neg fun hboth => ?_
      cases ht.symm.trans hboth.1
    · rfl
  | false =>
    unfold update
    rw [if_neg (by rw [ht]; decide)]
    -- apart from an activation and a result, a message leaves the monitor with its number and its
    -- connection, or takes it down
    cases m with
    | key k =>
      dsimp only
      split
      · exact (continued_handleAction s _).succession rfl
      · exact (Continued.refl s).succession rfl
    | resize size =>
      have hsame : s.Continued { s with size, monitor := s.monitor.map (·.resize size) } :=
        .of_map (f := (·.resize size)) (fun _ => ⟨rfl, rfl⟩) rfl rfl
      exact hsame.succession rfl
    | activate a => exact succession_activate ht a
    | contextEnded seq =>
      dsimp only
      split
      · refine (Continued.of_none ?_ ?_).succession rfl
        · simp only [disconnect, stopMonitor_eq]
        · simp only [disconnect, stopMonitor_eq]
      · exact (Continued.refl s).succession rfl
    | result seq result => exact succession_handleResult h seq result
    | showFatal report =>
      refine (Continued.of_none ?_ ?_).succession rfl
      · simp only [showFatal, stopMonitor_eq]
      · simp only [showFatal, stopMonitor_eq]
    | preferencesChanged p =>
      have hsame : s.Continued (s.setPreferences p).1 :=
        .of_map (f := (·.setPreferences p)) (fun _ => ⟨rfl, rfl⟩) rfl rfl
      exact hsame.succession rfl
    | close => exact (continued_exit s).succession rfl

/-! ## What an activation asks for -/

/-- What is asked for on behalf of an activation is asked for while its monitor is up. -/
theorem seq?_of_mem_update (h : s.Scoped) {e : Effect} (he : e ∈ (s.update m).2.flatten) {k : Nat}
    (hk : e.seq? = some k) : ∃ r, (s.update m).1.monitor = some r ∧ r.seq = k := by
  have ht := live_of_mem_update he
  -- a round is asked for by the monitor that is up afterwards
  have hround : e.kind = .round → ∃ r, (s.update m).1.monitor = some r ∧ r.seq = k := by
    intro hkind
    obtain ⟨r, hr, ht', hmem⟩ := mem_round_of_update h ht he hkind
    have hscoped := h.update m
    have hseq := Monitor.seq?_of_mem_round (hscoped.placed ht' hr) (hscoped.monitor r hr) hmem
    exact ⟨r, hr, Option.some.inj (hseq.symm.trans hk)⟩
  have hchange := update_change (h.standing ht) ht m
  generalize (s.update m).1 = s', (s.update m).2.flatten = es at hchange he hround
  cases hchange with
  | shown kept silent =>
    have hsilent := silent e he
    cases e with
    | emit | quit | clearScreen | savePreferences => exact nomatch hk
    | scheduleTick | scheduleLogTick | watchLog | fetchLogs | sampleTraffic | awaitContextEnd
      | awaitReady => exact nomatch hsilent
  | picked | disconnected | reconfigured =>
    rw [List.mem_singleton.1 he] at hk
    exact nomatch hk
  | broke | exited =>
    rcases List.mem_cons.1 he with rfl | he
    · exact nomatch hk
    · rw [List.mem_singleton.1 he] at hk
      exact nomatch hk
  | fetched | fatalShown => exact absurd he List.not_mem_nil
  | refreshed | switched => exact hround (kind_of_mem_round he)
  | @activated r a is phase start =>
    rcases List.mem_append.1 he with he | he
    · have hseq : k = s.activationSeq + 1 := by
        unfold Activation.waits at he
        rcases List.mem_cons.1 he with rfl | he
        · exact (Option.some.inj hk).symm
        · obtain ⟨signal, -, rfl⟩ := Option.map_eq_some_iff.1 (Option.mem_toList.1 he)
          exact (Option.some.inj hk).symm
      exact ⟨r, rfl, by rw [start, hseq]; rfl⟩
    · exact hround (kind_of_mem_round he)

/-- The waits for a data plane are those of the activation that is taken. -/
theorem waits_of_mem_update (h : s.Scoped) {e : Effect} (he : e ∈ (s.update m).2.flatten)
    (hkind : e.kind = .vigil) :
    ∃ a, s.accepted m = [a] ∧ e ∈ a.waits (s.activationSeq + 1) := by
  have ht := live_of_mem_update he
  have hchange := update_change (h.standing ht) ht m
  generalize (s.update m).1 = s', (s.update m).2.flatten = es at hchange he
  -- only an activation that is taken brings waits of this kind
  cases hchange with
  | shown kept silent => exact nomatch hkind.symm.trans (silent e he)
  | picked | disconnected | reconfigured =>
    rw [List.mem_singleton.1 he] at hkind
    exact nomatch hkind
  | broke | exited =>
    rcases List.mem_cons.1 he with rfl | he
    · exact nomatch hkind
    · rw [List.mem_singleton.1 he] at hkind
      exact nomatch hkind
  | fetched | fatalShown => exact absurd he List.not_mem_nil
  | refreshed | switched => exact nomatch hkind.symm.trans (kind_of_mem_round he)
  | activated a is phase =>
    rcases List.mem_append.1 he with he | he
    · subst is
      exact ⟨a, if_pos ⟨ht, phase⟩, he⟩
    · exact nomatch hkind.symm.trans (kind_of_mem_round he)

/-! ## Losses -/

/-- Where no loss is told, there is none. -/
theorem losses_eq_nil (h : .emit .runtimeDisconnected ∉ (s.update m).2.flatten) :
    s.losses m = [] := by
  unfold losses
  rw [List.map_eq_nil_iff, List.filter_eq_nil_iff]
  intro e he heq
  exact h (of_decide_eq_true heq ▸ he)

/-- A loss is told of the activation whose monitor is up, when its own end is reported, and the monitor
    is taken down with it. -/
theorem losses_cases (h : s.Scoped) (m : Message) :
    s.losses m = [] ∨ (s.losses m = [s.activationSeq] ∧ m = .contextEnded s.activationSeq ∧
      (∃ r, s.monitor = some r) ∧ (s.update m).1.monitor = none) := by
  by_cases hmem : .emit .runtimeDisconnected ∈ (s.update m).2.flatten
  · refine Or.inr ?_
    have ht := live_of_mem_update hmem
    have hchange := update_change (h.standing ht) ht m
    unfold losses
    generalize (s.update m).1 = s', (s.update m).2.flatten = es at hchange hmem
    -- of all changes only the one that tells of a loss has such an event
    cases hchange with
    | shown kept silent => exact nomatch silent _ hmem
    | picked | reconfigured => exact nomatch List.mem_singleton.1 hmem
    | fetched | fatalShown => exact absurd hmem List.not_mem_nil
    | refreshed | switched => exact nomatch kind_of_mem_round hmem
    | activated =>
      rcases List.mem_append.1 hmem with hmem | hmem
      · exact nomatch kind_of_mem_waits hmem
      · exact nomatch kind_of_mem_round hmem
    | broke | exited =>
      rcases List.mem_cons.1 hmem with hmem | hmem
      · exact nomatch hmem
      · exact nomatch List.mem_singleton.1 hmem
    | disconnected phase is =>
      exact ⟨rfl, is, (h.standing ht).exists_monitor phase, by simp only [disconnect, stopMonitor_eq]⟩
  · exact Or.inl (losses_eq_nil hmem)

end Session
end TunnelBoard
