import TunnelBoard.Proofs.Session.Activations
import TunnelBoard.Proofs.Session.Visit
/-
  The scopes of a session end with what they stand for, neither earlier nor later.

  Every wait that a session asks for carries a token, and the token outlives the state that handed it
  out.  It watches the scope of the activation, and for waits of the logs the scope of the visit too.
  So there are two questions, and each is answered for all messages that may come after the wait was
  asked for:

  1. when has the scope of an activation ended?  When its monitor was taken down, which takes a lost
     data plane, the wish to choose again or a failure that is shown, or when the session is over
     (`hasEnded_activation_iff`);
  2. when has the scope of a visit ended?  At the latest with its activation, and otherwise when the
     number of the visit is not the current one any more (`visit_of_after`, `number_of_hasEnded`).

  The crux of the first is that one message does one of three things to an activation that is up
  (`Fate`).  For the second, a visit that goes on keeps its number and its screen, and a number that was
  given up does not come back, so the numbers alone tell whether the visit is over.
-/

namespace TunnelBoard
namespace Session

/-- Whether the monitor of an activation is up. -/
def Shows (s : Session) (k : Nat) : Prop := ∃ r, s.monitor = some r ∧ r.seq = k

/-- Whether a message takes down the monitor that is up: the data plane is lost, the operator wants to
    choose again, or a failure is shown. -/
def TakesDown (s : Session) (m : Message) : Prop :=
  s.terminated = false ∧
    (.emit .runtimeDisconnected ∈ (s.update m).2.flatten ∨
      .emit .reconfigure ∈ (s.update m).2.flatten ∨ ∃ report, m = .showFatal report)

/-- Whether one of some messages takes down the monitor of an activation. -/
def TornDown (s : Session) (k : Nat) (ms : List Message) : Prop :=
  ∃ before m after, ms = before ++ m :: after ∧ (s.after before).Shows k ∧
    (s.after before).TakesDown m

variable {s s' : Session} {m : Message} {k : Nat}

/-! ## What one message does to an activation that is up

An activation that is up ends by a message that takes its monitor down, or with the session.  There is
no third way, and in both of them its scope ends. -/

/-- After a message that takes the monitor down none is up. -/
theorem TakesDown.monitor_eq_none (h : s.Scoped) (hm : s.TakesDown m) :
    (s.update m).1.monitor = none := by
  obtain ⟨ht, hm⟩ := hm
  -- an event of this kind comes with changes that take the monitor down, and with no others
  have hevent : ∀ e : Event, e = .runtimeDisconnected ∨ e = .reconfigure →
      .emit e ∈ (s.update m).2.flatten → (s.update m).1.monitor = none := by
    intro e he hmem
    have hchange := update_change (h.standing ht) ht m
    generalize (s.update m).1 = s', (s.update m).2.flatten = es at hchange hmem
    have hround : ∀ r : Monitor, .emit e ∉ r.round := fun r hr => nomatch kind_of_mem_round hr
    cases hchange with
    | shown kept silent => exact nomatch silent _ hmem
    | refreshed | switched => exact absurd hmem (hround _)
    | fetched => exact absurd hmem List.not_mem_nil
    | activated =>
      rcases List.mem_append.1 hmem with hmem | hmem
      · exact nomatch kind_of_mem_waits hmem
      · exact absurd hmem (hround _)
    | picked mode =>
      cases List.mem_singleton.1 hmem
      rcases he with he | he
      · cases he
      · cases he
    | exited =>
      rcases List.mem_cons.1 hmem with hmem | hmem
      · cases hmem
        rcases he with he | he
        · cases he
        · cases he
      · cases List.mem_singleton.1 hmem
    | disconnected | reconfigured | broke | fatalShown =>
      simp only [disconnect, showFatal, stopMonitor_eq]
  rcases hm with hmem | hmem | ⟨report, rfl⟩
  · exact hevent _ (Or.inl rfl) hmem
  · exact hevent _ (Or.inr rfl) hmem
  · unfold update
    rw [if_neg (by rw [ht]; decide)]
    simp only [showFatal, stopMonitor_eq]

/-- What becomes of an activation that is up when the session handles a message. -/
inductive Fate (s : Session) (m : Message) (k : Nat) (s' : Session) : Prop where
  /-- It stays up. -/
  | kept (live : s'.terminated = false) (shows_ : s'.Shows k) (not : ¬ s.TakesDown m)
  /-- Its monitor is taken down, and its scope ends with it. -/
  | down (live : s'.terminated = false) (takes : s.TakesDown m)
      (ended : s'.hasEnded (.activation k) = true)
  /-- The session is over, and the scope ends with it. -/
  | finished (terminated : s'.terminated = true) (ended : s'.hasEnded (.activation k) = true)

/-- One message does one of the three things to an activation that is up, by the list of what a
    message changes. -/
theorem fate_of_update (h : s.Scoped) (ht : s.terminated = false) (hk : s.Shows k) (m : Message) :
    Fate s m k (s.update m).1 := by
  obtain ⟨r, hr, rfl⟩ := hk
  have hdown := TakesDown.monitor_eq_none (m := m) h
  have hchange := update_change (h.standing ht) ht m
  have hup : (s.update m).1.terminated = false → (s.update m).1.Shows r.seq →
      Fate s m r.seq (s.update m).1 := by
    intro hlive hshows
    refine .kept hlive hshows fun hm => ?_
    obtain ⟨r', hr', -⟩ := hshows
    exact nomatch (hdown hm).symm.trans hr'
  -- to take the monitor down is to end its scope
  have hended : (s.update m).1.ended = s.stopMonitor.ended →
      (s.update m).1.hasEnded (.activation r.seq) = true := fun hs' =>
    hasEnded_of_stopMonitor hs' (Or.inr ⟨r, hr, r.activation_mem_ended_stopWaits⟩)
  have htakes : (.emit .runtimeDisconnected ∈ (s.update m).2.flatten ∨
      .emit .reconfigure ∈ (s.update m).2.flatten ∨ ∃ report, m = .showFatal report) →
      s.TakesDown m := fun hm => ⟨ht, hm⟩
  generalize (s.update m).1 = s', (s.update m).2.flatten = es at hchange hup hended htakes
  cases hchange with
  | shown kept =>
    obtain ⟨r', hr', same⟩ := kept.exists_monitor hr
    exact hup (kept.terminated.trans ht) ⟨r', hr', same.seq⟩
  | picked | refreshed => exact hup ht ⟨r, hr, rfl⟩
  | fetched lines monitor =>
    cases monitor.symm.trans hr
    exact hup ht ⟨_, rfl, rfl⟩
  | switched target monitor =>
    cases monitor.symm.trans hr
    exact hup ht ⟨_, rfl, (Monitor.switchScreen_frame _ target).1⟩
  | activated a is phase =>
    have hnone := (h.standing ht).monitor_eq_none (by rw [phase]; decide)
    exact nomatch hnone.symm.trans hr
  | disconnected =>
    exact .down (by simp only [disconnect, stopMonitor_eq, ht])
      (htakes (Or.inl List.mem_cons_self)) (hended rfl)
  | reconfigured =>
    exact .down (by simp only [stopMonitor_eq, ht])
      (htakes (Or.inr (Or.inl List.mem_cons_self))) (hended rfl)
  | fatalShown report is =>
    exact .down (by simp only [showFatal, stopMonitor_eq, ht])
      (htakes (Or.inr (Or.inr ⟨report, is⟩))) (hended rfl)
  | broke => exact .finished rfl (hended rfl)
  | exited =>
    have hm : s.exit.1.monitor = some r.stopWaits := by rw [exit, hr]; rfl
    exact .finished rfl (hasEnded_iff.2 (Or.inr ⟨_, hm, r.activation_mem_ended_stopWaits⟩))

/-! ## The scope of an activation -/

/-- What has ended stays so, whatever comes after it. -/
theorem hasEnded_after (h : s.Scoped) {x : Scope} (hx : s.hasEnded x = true) (ms : List Message) :
    (s.after ms).hasEnded x = true := by
  have hall : (s.after ms).Scoped ∧ (s.after ms).hasEnded x = true :=
    after_induction (P := fun s => s.Scoped ∧ s.hasEnded x = true)
      (fun s m hs => ⟨hs.1.update m, hasEnded_update hs.1 m hs.2⟩) ⟨h, hx⟩ ms
  exact hall.2

/-- Scopes are in order after any messages. -/
theorem scoped_after (h : s.Scoped) (ms : List Message) : (s.after ms).Scoped :=
  after_induction (P := Scoped) (fun _ m hs => hs.update m) h ms

/-- While the session goes on, the scope of an activation that is up has not ended. -/
theorem not_hasEnded_of_shows (h : s.Scoped) (ht : s.terminated = false) (hk : s.Shows k) :
    s.hasEnded (.activation k) = false := by
  obtain ⟨r, hr, rfl⟩ := hk
  rw [← Bool.not_eq_true, hasEnded_iff]
  rintro (hx | ⟨q, hq, hx⟩)
  · -- scopes that ended before belong to older activations
    obtain ⟨n, hn, -, hlt⟩ := h.past _ hx
    have hn : r.seq = n := Option.some.inj hn
    have hseq := h.seq r hr
    have := hlt (by rw [hr]; rfl)
    omega
  · cases hr.symm.trans hq
    have hgoing := h.going ht r hr
    unfold Monitor.isStopped at hgoing
    rw [List.contains_iff_mem.2 hx] at hgoing
    exact nomatch hgoing

/-- What happens after the first message is part of what happens. -/
theorem tornDown_cons (hm : ¬ s.TakesDown m) (ms : List Message) :
    s.TornDown k (m :: ms) ↔ (s.update m).1.TornDown k ms := by
  constructor
  · rintro ⟨before, n, rest, hsplit, hshows, htakes⟩
    cases before with
    | nil =>
      cases hsplit
      exact absurd htakes hm
    | cons m' before =>
      cases hsplit
      exact ⟨before, n, rest, rfl, hshows, htakes⟩
  · rintro ⟨before, n, rest, rfl, hshows, htakes⟩
    exact ⟨m :: before, n, rest, rfl, hshows, htakes⟩

/-- **The scope of an activation** that is up ends when its monitor is taken down, or when the session
    is over. -/
theorem hasEnded_activation_iff (h : s.Scoped) (ht : s.terminated = false) (hk : s.Shows k)
    (ms : List Message) : (s.after ms).hasEnded (.activation k) = true ↔
      s.TornDown k ms ∨ (s.after ms).terminated = true := by
  -- from message to message for as long as the activation is up
  induction ms generalizing s with
  | nil =>
    have hnot := not_hasEnded_of_shows h ht hk
    constructor
    · intro hended
      exact nomatch hnot.symm.trans hended
    · rintro (⟨before, m, rest, hsplit, -⟩ | hover)
      · simp at hsplit
      · exact nomatch ht.symm.trans hover
  | cons m ms ih =>
    rw [after_cons]
    have hscoped := h.update m
    cases fate_of_update h ht hk m with
    | kept live shows_ not => rw [ih hscoped live shows_, tornDown_cons not]
    | down live takes ended =>
      exact ⟨fun _ => Or.inl ⟨[], m, ms, rfl, hk, takes⟩, fun _ => hasEnded_after hscoped ended ms⟩
    | finished terminated ended =>
      rw [after_of_terminated terminated]
      exact ⟨fun _ => Or.inr terminated, fun _ => ended⟩

/-- An activation that was up is up still, or its scope has ended. -/
theorem shows_after (h : s.Scoped) (ht : s.terminated = false) (hk : s.Shows k) (ms : List Message) :
    (s.after ms).Shows k ∨ (s.after ms).hasEnded (.activation k) = true := by
  induction ms generalizing s with
  | nil => exact Or.inl hk
  | cons m ms ih =>
    have hscoped := h.update m
    cases fate_of_update h ht hk m with
    | kept live shows_ => exact ih hscoped live shows_
    | down _ _ ended | finished _ ended => exact Or.inr (hasEnded_after hscoped ended ms)

/-! ## The scope of a visit -/

/-- A visit that goes on keeps its number and its screen, and one that does not has ended. -/
theorem visit_of_update (h : s.Scoped) {r : Monitor} (hr : s.monitor = some r)
    (hscreen : r.screen = .logs) (m : Message) :
    (∃ r', (s.update m).1.monitor = some r' ∧ Chain.logs.link r' = Chain.logs.link r ∧
        r'.screen = .logs) ∨
      (Chain.logs.stop (Chain.logs.link r)).cancelled (s.update m).1.hasEnded = true := by
  cases ht : s.terminated with
  | true =>
    rw [update_of_terminated ht]
    exact Or.inl ⟨r, hr, rfl, hscreen⟩
  | false =>
    have hvisit := visit_of_change h ht (update_change (h.standing ht) ht m) hr hscreen
    refine hvisit.imp_left ?_
    rintro ⟨r', hr', hlink⟩
    refine ⟨r', hr', hlink, ?_⟩
    cases passage_update h ht m .logs with
    | gone monitor => exact nomatch monitor.symm.trans hr'
    | kept before after link home =>
      cases before.symm.trans hr
      cases after.symm.trans hr'
      exact home.2 hscreen
    | fresh after new =>
      -- the number would be a new one
      cases after.symm.trans hr'
      exact absurd (hlink ▸ reached_link h hr) new

/-- A visit goes on under its number, or its waits have been told to stop. -/
theorem visit_of_after (h : s.Scoped) {r : Monitor} (hr : s.monitor = some r)
    (hscreen : r.screen = .logs) (ms : List Message) :
    (∃ r', (s.after ms).monitor = some r' ∧ Chain.logs.link r' = Chain.logs.link r) ∨
      (Chain.logs.stop (Chain.logs.link r)).cancelled (s.after ms).hasEnded = true := by
  induction ms generalizing s r with
  | nil => exact Or.inl ⟨r, hr, rfl⟩
  | cons m ms ih =>
    rcases visit_of_update h hr hscreen m with ⟨r', hr', hlink, hscreen'⟩ | hcancelled
    · rw [← hlink]
      exact ih (h.update m) hr' hscreen'
    · exact Or.inr (Token.cancelled_mono (fun x hx => hasEnded_after (h.update m) hx ms) _ hcancelled)

/-- The scope of a visit of the activation that is up ends with the number of the visit. -/
theorem number_of_hasEnded (h : s.Scoped) {r : Monitor} (hr : s.monitor = some r) {n : Nat}
    (hended : s.hasEnded (.logVisit r.seq n) = true) : r.logSeq ≠ n := by
  rcases hasEnded_iff.1 hended with hx | ⟨q, hq, hx⟩
  · obtain ⟨j, hj, -, hlt⟩ := h.past _ hx
    have hj : r.seq = j := Option.some.inj hj
    have hseq := h.seq r hr
    have := hlt (by rw [hr]; rfl)
    omega
  · cases hr.symm.trans hq
    rcases (h.monitor r hr).past _ hx with hx | ⟨v, hx, hlt⟩
    · cases hx
    · cases hx
      omega

/-! ## The tokens of the waits -/

/-- What the token of a wait watches: the activation, and for a wait of the logs the visit too. -/
inductive Watches (r : Monitor) (e : Effect) (stop : StopToken) : Prop where
  | activation (other : Chain.logs.ofEffect? e = none) (token : stop = .ofScope (.activation r.seq))
  | visit (link : Chain.logs.ofEffect? e = some (Chain.logs.link r)) (screen : r.screen = .logs)
      (token : stop = Chain.logs.stop (Chain.logs.link r))

variable {e : Effect} {stop : StopToken}

/-- Only what is asked for in a round or for a data plane carries a token. -/
theorem kind_of_stop? (h : e.stop? = some stop) : e.kind = .round ∨ e.kind = .vigil := by
  cases e with
  | scheduleTick | scheduleLogTick | watchLog => exact Or.inl rfl
  | awaitContextEnd | awaitReady => exact Or.inr rfl
  | emit | quit | clearScreen | fetchLogs | sampleTraffic | savePreferences => exact nomatch h

/-- The waits for a data plane come with its monitor, which is up then under a new number. -/
theorem up_of_mem_update (h : s.Scoped) (he : e ∈ (s.update m).2.flatten) (hkind : e.kind = .vigil) :
    (s.update m).1.terminated = false ∧
      ∃ r, (s.update m).1.monitor = some r ∧ r.seq = s.activationSeq + 1 := by
  obtain ⟨a, ha, -⟩ := waits_of_mem_update h he hkind
  have hup : ∃ r, (s.update m).1.monitor = some r ∧ r.seq = s.activationSeq + 1 := by
    cases succession_update h m with
    | stayed none => exact nomatch ha.symm.trans none
    | began one seq monitor number => exact ⟨_, monitor, number⟩
  refine ⟨?_, hup⟩
  -- no change that ends a session leaves its monitor going
  obtain ⟨r, hr, -⟩ := hup
  have ht := live_of_mem_update he
  have hchange := update_change (h.standing ht) ht m
  generalize (s.update m).1 = s', (s.update m).2.flatten = es at hchange he hr
  cases hchange with
  | shown kept => exact kept.terminated.trans ht
  | picked | refreshed | fetched | switched | activated => exact ht
  | disconnected | reconfigured | broke | fatalShown =>
    simp only [disconnect, showFatal, stopMonitor_eq, reduceCtorEq] at hr
  | exited =>
    rcases List.mem_cons.1 he with rfl | he
    · exact absurd hkind (by decide)
    · rw [List.mem_singleton.1 he] at hkind
      exact absurd hkind (by decide)

/-- A wait is asked for on behalf of the monitor that is up then. -/
theorem watches_of_mem_update (h : s.Scoped) (he : e ∈ (s.update m).2.flatten)
    (hstop : e.stop? = some stop) :
    (s.update m).1.terminated = false ∧
      ∃ r, (s.update m).1.monitor = some r ∧ e.seq? = some r.seq ∧ Watches r e stop := by
  have ht := live_of_mem_update he
  have hscoped := h.update m
  rcases kind_of_stop? hstop with hkind | hkind
  · -- a wait of a round: the list of what can be in one says which token it has
    obtain ⟨r, hr, ht', hmem⟩ := mem_round_of_update h ht he hkind
    refine ⟨ht', r, hr, ?_⟩
    cases Monitor.inRound_of_mem (hscoped.placed ht' hr) (hscoped.monitor r hr) hmem with
    | sample | fetch => exact nomatch hstop
    | tick =>
      cases hstop
      exact ⟨rfl, .activation rfl rfl⟩
    | watch screen | logTick screen =>
      cases hstop
      exact ⟨rfl, .visit rfl screen rfl⟩
  · -- a wait of the activation that has just been taken
    obtain ⟨a, -, hmem⟩ := waits_of_mem_update h he hkind
    obtain ⟨ht', r, hr, hseq⟩ := up_of_mem_update h he hkind
    refine ⟨ht', r, hr, ?_⟩
    rw [hseq]
    unfold Activation.waits at hmem
    rcases List.mem_cons.1 hmem with rfl | hmem
    · cases hstop
      exact ⟨rfl, .activation rfl (by rw [hseq])⟩
    · obtain ⟨signal, -, rfl⟩ := Option.map_eq_some_iff.1 (Option.mem_toList.1 hmem)
      cases hstop
      exact ⟨rfl, .activation rfl (by rw [hseq])⟩

/-! ## When a wait is told to stop

Every wait has a token of its activation, and a wait for lines has one of its visit as well.  So its
end is a matter of these two scopes, whose fate has been followed from message to message. -/

/-- The number of a visit is not the current one of the activation any more. -/
def Moved (s : Session) (l : Link) : Prop :=
  ∃ r, s.monitor = some r ∧ r.seq = l.1 ∧ r.logSeq ≠ l.2

/-- A visit ends with its activation, with the session, or with its number. -/
theorem cancelled_visit_iff (h : s.Scoped) (ht : s.terminated = false) {r : Monitor}
    (hr : s.monitor = some r) (hscreen : r.screen = .logs) (ms : List Message) :
    (Chain.logs.stop (Chain.logs.link r)).cancelled (s.after ms).hasEnded = true ↔
      s.TornDown r.seq ms ∨ (s.after ms).terminated = true ∨
        (s.after ms).Moved (Chain.logs.link r) := by
  have hactivation := hasEnded_activation_iff h ht ⟨r, hr, rfl⟩ ms
  rw [← or_assoc, ← hactivation, cancelled_visit, Bool.or_eq_true]
  constructor
  · rintro (hvisit | hover)
    · -- the visit itself has ended, so the monitor that is up counts another one, if it is the same
      rcases shows_after h ht ⟨r, hr, rfl⟩ ms with ⟨r', hr', hseq⟩ | hover
      · rw [← hseq] at hvisit
        have hnumber := number_of_hasEnded (scoped_after h ms) hr' hvisit
        exact Or.inr ⟨r', hr', hseq, hnumber⟩
      · exact Or.inl hover
    · exact Or.inl hover
  · rintro (hover | ⟨r', hr', -, hnumber⟩)
    · exact Or.inr hover
    · -- conversely, a visit that goes on would have kept its number
      rcases visit_of_after h hr hscreen ms with ⟨q, hq, hlink⟩ | hcancelled
      · cases hr'.symm.trans hq
        exact absurd (congrArg Prod.snd hlink) hnumber
      · rwa [cancelled_visit, Bool.or_eq_true] at hcancelled

/-- An effect that a session asks for, and the state that it is in then. -/
inductive Asks (config : Config) (prefs : Preferences) (logs : LogSource) (size : TerminalSize) :
    Session → Effect → Prop where
  | first {e : Effect} (mem : e ∈ opening config prefs logs size) :
      Asks config prefs logs size (begun config prefs logs size) e
  | answer {e : Effect} (ms : List Message) (m : Message)
      (mem : e ∈ (((begun config prefs logs size).after ms).update m).2.flatten) :
      Asks config prefs logs size (((begun config prefs logs size).after ms).update m).1 e

variable {config : Config} {prefs : Preferences} {logs : LogSource} {size : TerminalSize}

/-- Whoever asks for an effect has come there by messages from the beginning, and has its scopes in
    order. -/
theorem scoped_of_asks (h : Asks config prefs logs size s e) : s.Scoped := by
  have hbegun := scoped_begun config prefs logs size
  cases h with
  | first => exact hbegun
  | answer ms m => exact (scoped_after hbegun ms).update m

/-- A session does not begin with waits, so each is asked for by a message. -/
theorem watches_of_asks (h : Asks config prefs logs size s e) (hstop : e.stop? = some stop) :
    s.terminated = false ∧ ∃ r, s.monitor = some r ∧ e.seq? = some r.seq ∧ Watches r e stop := by
  have hbegun := scoped_begun config prefs logs size
  cases h with
  | first hmem =>
    rcases begun_cases config prefs logs size with ⟨-, -, hopening⟩ | ⟨-, -, cause, hopening⟩
    · rw [hopening] at hmem
      exact absurd hmem List.not_mem_nil
    · rw [hopening] at hmem
      rcases List.mem_cons.1 hmem with rfl | hmem
      · exact nomatch hstop
      · rw [List.mem_singleton.1 hmem] at hstop
        exact nomatch hstop
  | answer ms m hmem => exact watches_of_mem_update (scoped_after hbegun ms) hmem hstop

/-- **The scopes of a session end when they should**, whatever messages come.  A wait is asked for on
    behalf of an activation that is up.  Its token is cancelled if and only if since then the activation
    was taken down, or the session is over, or the wait belongs to a visit to the logs and the number of
    the visit has been given up.  A token that is cancelled stays so. -/
theorem waits_end_with_their_scopes (config : Config) (prefs : Preferences) (logs : LogSource)
    (size : TerminalSize) {s : Session} {e : Effect} {stop : StopToken}
    (he : Asks config prefs logs size s e) (hstop : e.stop? = some stop) (ms ns : List Message) :
    ∃ k, e.seq? = some k ∧ s.Shows k ∧
      (stop.cancelled (s.after ms).hasEnded = true ↔
        s.TornDown k ms ∨ (s.after ms).terminated = true ∨
          ∃ n, Chain.logs.ofEffect? e = some (k, n) ∧ (s.after ms).Moved (k, n)) ∧
      (stop.cancelled (s.after ms).hasEnded = true →
        stop.cancelled ((s.after ms).after ns).hasEnded = true) := by
  have hscoped := scoped_of_asks he
  obtain ⟨ht, r, hr, hseq, hwatches⟩ := watches_of_asks he hstop
  have hstays : stop.cancelled (s.after ms).hasEnded = true →
      stop.cancelled ((s.after ms).after ns).hasEnded = true :=
    Token.cancelled_mono (fun x hx => hasEnded_after (scoped_after hscoped ms) hx ns) stop
  refine ⟨r.seq, hseq, ⟨r, hr, rfl⟩, ?_, hstays⟩
  -- a wait of the activation alone, or one of a visit to the logs
  cases hwatches with
  | activation other token =>
    rw [token, other]
    simpa using hasEnded_activation_iff hscoped ht ⟨r, hr, rfl⟩ ms
  | visit link screen token =>
    have hlink : ∀ n, Chain.logs.ofEffect? e = some (r.seq, n) ↔ n = r.logSeq := by
      intro n
      rw [link]
      simp [Chain.link, Chain.number, eq_comm]
    simp only [hlink, exists_eq_left]
    rw [token]
    exact cancelled_visit_iff hscoped ht hr screen ms

/-- The messages that lead to the settings screen of a first data plane. -/
def toSettings : List Message :=
  [.key ⟨.enter, false, .press⟩, .activate ⟨.tun, Token.never, none, 0⟩, .key ⟨.tab, false, .press⟩]

/-- A session that has just come from there to its logs. -/
def reader : Session :=
  (((begun (Config.standard none) .standard ⟨.ring, true⟩ ⟨80, 24⟩).after toSettings).update
    (.key ⟨.tab, false, .press⟩)).1

/-- Who goes back to the settings ends the wait for lines, and nothing revives it. -/
theorem watch_ends_with_visit :
    Asks (Config.standard none) .standard ⟨.ring, true⟩ ⟨80, 24⟩ reader
        (.watchLog 1 1 (Chain.logs.stop (1, 1))) ∧
      (Chain.logs.stop (1, 1)).cancelled reader.hasEnded = false ∧
      ∀ ns, (Chain.logs.stop (1, 1)).cancelled
        ((reader.after [.key ⟨.backtab, false, .press⟩]).after ns).hasEnded = true := by
  have hasks : Asks (Config.standard none) .standard ⟨.ring, true⟩ ⟨80, 24⟩ reader
      (.watchLog 1 1 (Chain.logs.stop (1, 1))) :=
    .answer toSettings (.key ⟨.tab, false, .press⟩) (by decide +kernel)
  have hany : ((reader.after [.key ⟨.backtab, false, .press⟩]).monitor.any fun r =>
      decide (r.seq = 1 ∧ r.logSeq ≠ 1)) = true := by decide +kernel
  obtain ⟨r, hr, hmoved⟩ := (Option.any_eq_true _ _).1 hany
  refine ⟨hasks, by decide +kernel, fun ns => ?_⟩
  obtain ⟨k, hk, -, hiff, hstays⟩ := waits_end_with_their_scopes _ _ _ _ hasks rfl
    [.key ⟨.backtab, false, .press⟩] ns
  cases hk
  exact hstays (hiff.2 (Or.inr (Or.inr ⟨1, rfl, r, hr, of_decide_eq_true hmoved⟩)))

end Session
end TunnelBoard
