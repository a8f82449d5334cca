import TunnelBoard.Proofs.Session.Change
/-
  The scopes and the chains of a session, from one state to the next.

  `Scoped` says of a session what `Monitor.Scoped` says of a monitor: its scopes are numbered like its
  activations, and what has ended belongs to the past, so a wait that is still wanted cannot have been
  ended.  Unlike the standing order it goes on to hold when the session is over.

  Of a chain it matters which number is current and which numbers have been used.  A message lets a
  monitor keep its number, or takes the monitor down, or brings a number that was never used before:
  `Passage` has these three cases, and `passage_update` says that there is no fourth.

  All of this is read off the changes that a message can make (`Change`), one case for each, and never
  off the messages themselves.  For the monitor three things can happen: it is exchanged for one of
  the same activation (`Scoped.withMonitor`), taken down (`scoped_stopMonitor`), or left with its
  waits ended (`scoped_stopWaits`).
-/

namespace TunnelBoard

/-- The activation that a scope belongs to. -/
def Scope.seq? : Scope → Option Nat
  | activation seq => some seq
  | logVisit seq _ => some seq
  | session | outside _ => none

namespace Session

structure Scoped (s : Session) : Prop where
  standing : s.terminated = false → s.Standing
  seq : ∀ r, s.monitor = some r → r.seq = s.activationSeq
  monitor : ∀ r, s.monitor = some r → r.Scoped
  /-- While a session goes on, so does its monitor. -/
  going : s.terminated = false → ∀ r, s.monitor = some r → r.isStopped = false
  /-- Only scopes of activations have ended, and none of the activation whose monitor is up. -/
  past : ∀ x ∈ s.ended, ∃ n, x.seq? = some n ∧ n ≤ s.activationSeq ∧
    (s.monitor.isSome → n < s.activationSeq)

variable {s s' : Session}

/-- While a session goes on, the parts of its monitor are in their places. -/
theorem Scoped.placed (h : s.Scoped) (ht : s.terminated = false) {r : Monitor}
    (hr : s.monitor = some r) : r.Placed := ((h.standing ht).monitor r hr).1.placed

/-- A monitor may be exchanged for one of the same activation. -/
theorem Scoped.withMonitor (h : s.Scoped) {r r' : Monitor} (hr : s.monitor = some r)
    (hs : s'.Standing) (ht : s'.terminated = s.terminated) (hseq : s'.activationSeq = s.activationSeq)
    (hended : s'.ended = s.ended) (hr' : s'.monitor = some r') (hsame : r'.seq = r.seq)
    (hscoped : r'.Scoped) (hstopped : r'.isStopped = r.isStopped) : s'.Scoped := by
  refine ⟨fun _ => hs, fun q hq => ?_, fun q hq => ?_, fun ht' q hq => ?_, fun x hx => ?_⟩
  · cases hr'.symm.trans hq
    rw [hsame, hseq]
    exact h.seq r hr
  · cases hr'.symm.trans hq
    exact hscoped
  · cases hr'.symm.trans hq
    rw [hstopped]
    exact h.going (ht ▸ ht') r hr
  · rw [hended] at hx
    obtain ⟨n, hn, hle, hlt⟩ := h.past x hx
    refine ⟨n, hn, by omega, fun _ => ?_⟩
    have := hlt (by rw [hr]; rfl)
    omega

/-- A session whose monitor has been taken down. -/
theorem scoped_stopMonitor (h : s.Scoped) (hs : s'.terminated = false → s'.Standing)
    (hm : s'.monitor = none) (hseq : s'.activationSeq = s.activationSeq)
    (hended : s'.ended = s.stopMonitor.ended) : s'.Scoped := by
  have hnone : ∀ r, s'.monitor ≠ some r := fun r hr => nomatch hm.symm.trans hr
  refine ⟨hs, fun r hr => absurd hr (hnone r), fun r hr => absurd hr (hnone r),
    fun _ r hr => absurd hr (hnone r), fun x hx => ?_⟩
  -- a scope had ended before, or is ended together with the monitor
  have hpast : ∃ n, x.seq? = some n ∧ n ≤ s.activationSeq := by
    rw [hended, stopMonitor_eq] at hx
    rcases List.mem_append.1 hx with hx | hx
    · obtain ⟨n, hn, hle, -⟩ := h.past x hx
      exact ⟨n, hn, hle⟩
    · cases hr : s.monitor with
      | none =>
        rw [hr] at hx
        exact absurd hx List.not_mem_nil
      | some r =>
        rw [hr] at hx
        have hseq := h.seq r hr
        have hwaits : r.stopWaits.seq = r.seq := rfl
        rcases (Monitor.scoped_stopWaits (h.monitor r hr)).past x hx with rfl | ⟨v, rfl, -⟩
        · exact ⟨_, rfl, by omega⟩
        · exact ⟨_, rfl, by omega⟩
  obtain ⟨n, hn, hle⟩ := hpast
  refine ⟨n, hn, by omega, fun hsome => ?_⟩
  rw [hm] at hsome
  exact nomatch hsome

/-- A session whose waits have all been ended. -/
theorem scoped_stopWaits (h : s.Scoped) (ht : s'.terminated = true)
    (hm : s'.monitor = s.monitor.map Monitor.stopWaits) (hseq : s'.activationSeq = s.activationSeq)
    (hended : s'.ended = s.ended) : s'.Scoped := by
  refine ⟨fun hf => (nomatch ht.symm.trans hf), fun r' hr' => ?_, fun r' hr' => ?_,
    fun hf => (nomatch ht.symm.trans hf), fun x hx => ?_⟩
  · rw [hm] at hr'
    obtain ⟨r, hr, rfl⟩ := Option.map_eq_some_iff.1 hr'
    rw [hseq]
    exact h.seq r hr
  · rw [hm] at hr'
    obtain ⟨r, hr, rfl⟩ := Option.map_eq_some_iff.1 hr'
    exact Monitor.scoped_stopWaits (h.monitor r hr)
  · rw [hended] at hx
    rw [hm, Option.isSome_map, hseq]
    exact h.past x hx

/-- What is over without having been ended in order is still scoped. -/
theorem scoped_terminated (h : s.Scoped) : Scoped { s with terminated := true } :=
  ⟨fun hf => (nomatch hf), h.seq, h.monitor, fun hf => (nomatch hf), h.past⟩

/-- A session begins without a monitor and without scopes that have ended. -/
theorem scoped_begun (config : Config) (prefs : Preferences) (logs : LogSource)
    (size : TerminalSize) : (begun config prefs logs size).Scoped := by
  obtain ⟨hmonitor, hended, -⟩ := begun_frame config prefs logs size
  have hnone : ∀ r, (begun config prefs logs size).monitor ≠ some r := fun r hr =>
    nomatch hmonitor.symm.trans hr
  refine ⟨standing_begun, fun r hr => absurd hr (hnone r), fun r hr => absurd hr (hnone r),
    fun _ r hr => absurd hr (hnone r), fun x hx => ?_⟩
  rw [hended] at hx
  exact absurd hx List.not_mem_nil

/-- A message keeps a session scoped. -/
theorem Scoped.update (h : s.Scoped) (m : Message) : (s.update m).1.Scoped := by
  cases ht : s.terminated with
  | true =>
    rw [update_of_terminated ht]
    exact h
  | false =>
    have hstanding := (h.standing ht).update m
    have hchange := update_change (h.standing ht) ht m
    -- from here on only the change counts, not how the message came to it
    generalize (s.update m).1 = s', (s.update m).2.flatten = es at hstanding hchange
    cases hchange with
    | shown kept =>
      have hs := hstanding (kept.terminated.trans ht)
      cases hr : s.monitor with
      | none =>
        refine scoped_stopMonitor h (fun _ => hs) (kept.monitor_eq_none hr) kept.activationSeq
          (kept.ended.trans ?_)
        rw [stopMonitor_eq, hr]
        exact (List.append_nil _).symm
      | some r =>
        obtain ⟨r', hr', same⟩ := kept.exists_monitor hr
        exact h.withMonitor hr hs kept.terminated kept.activationSeq kept.ended hr' same.seq
          (same.scoped (h.monitor r hr)) same.isStopped
    | picked mode mem phase =>
      -- no monitor is up, and to take down none changes nothing
      have hmonitor := (h.standing ht).monitor_eq_none (by rw [phase]; decide)
      refine scoped_stopMonitor h hstanding hmonitor rfl ?_
      rw [stopMonitor_eq, hmonitor]
      exact (List.append_nil _).symm
    | refreshed => exact h
    | fetched lines monitor =>
      exact h.withMonitor monitor (hstanding ht) rfl rfl rfl rfl rfl
        ⟨(h.monitor _ monitor).visit, (h.monitor _ monitor).past⟩ rfl
    | switched target monitor other =>
      exact h.withMonitor monitor (hstanding ht) rfl rfl rfl rfl
        (Monitor.switchScreen_frame _ target).1
        (Monitor.scoped_switchScreen (h.monitor _ monitor) target)
        (Monitor.isStopped_switchScreen _ target)
    | activated a is phase start =>
      -- whatever has ended belongs to an older activation than the one that starts
      have hfresh : ∀ x ∈ s.ended, ∃ n, x.seq? = some n ∧ n ≤ s.activationSeq := by
        intro x hx
        obtain ⟨n, hn, hle, -⟩ := h.past x hx
        exact ⟨n, hn, hle⟩
      refine ⟨hstanding, fun r hr => ?_, fun r hr => ?_, fun _ r hr => ?_, fun x hx => ?_⟩
      · cases hr
        rw [start]
        rfl
      · cases hr
        rw [start]
        exact ⟨fun v hv => (nomatch hv), fun x hx => absurd hx List.not_mem_nil⟩
      · cases hr
        rw [start]
        rfl
      · obtain ⟨n, hn, hle⟩ := hfresh x hx
        exact ⟨n, hn, Nat.le_succ_of_le hle, fun _ => Nat.lt_succ_of_le hle⟩
    | disconnected =>
      exact scoped_stopMonitor h hstanding (by simp only [disconnect, stopMonitor_eq])
        (by simp only [disconnect, stopMonitor_eq]) rfl
    | reconfigured =>
      exact scoped_stopMonitor h hstanding (by simp only [stopMonitor_eq])
        (by simp only [stopMonitor_eq]) rfl
    | broke =>
      exact scoped_stopMonitor h hstanding (by simp only [stopMonitor_eq])
        (by simp only [stopMonitor_eq]) rfl
    | fatalShown =>
      exact scoped_stopMonitor h hstanding (by simp only [showFatal, stopMonitor_eq])
        (by simp only [showFatal, stopMonitor_eq]) rfl
    | exited => exact scoped_stopWaits h rfl rfl rfl rfl

end Session

/-! ## Numbers that have been used

Each activation has a number of its own, and within it each chain counts on.  A number that has been
reached stays so, and a higher one has never been used. -/

/-- Whether a number of a chain has been used already, or is in use. -/
def Chain.Reached (c : Chain) (s : Session) (k : Link) : Prop :=
  k.1 ≤ s.activationSeq ∧ ∀ r, s.monitor = some r → k.1 = r.seq → k.2 ≤ c.number r

namespace Session

variable {s s' : Session} {m : Message} {es : List Effect} {c : Chain} {k : Link}

/-- The current number of a chain is one that has been used. -/
theorem reached_link (h : s.Scoped) {r : Monitor} (hr : s.monitor = some r) :
    c.Reached s (c.link r) := by
  refine ⟨Nat.le_of_eq (h.seq r hr), fun q hq _ => ?_⟩
  cases hr.symm.trans hq
  exact Nat.le_refl _

/-- A number stays used when the monitor changes to one of the same activation with no smaller
    numbers. -/
theorem reached_of_monitor {r r' : Monitor} (hr : s.monitor = some r) (hr' : s'.monitor = some r')
    (hseq : s'.activationSeq = s.activationSeq) (hsame : r'.seq = r.seq)
    (hle : c.number r ≤ c.number r') (h : c.Reached s k) : c.Reached s' k := by
  refine ⟨hseq ▸ h.1, fun q hq hk => ?_⟩
  cases hr'.symm.trans hq
  have := h.2 r hr (hk.trans hsame)
  omega

/-- A number stays used when the monitor is taken down. -/
theorem reached_of_none (hm : s'.monitor = none) (hseq : s'.activationSeq = s.activationSeq)
    (h : c.Reached s k) : c.Reached s' k :=
  ⟨hseq ▸ h.1, fun _ hr => nomatch hm.symm.trans hr⟩

/-- To change the screen makes no number smaller. -/
theorem number_le_switchScreen (r : Monitor) (target : Screen) :
    c.number r ≤ c.number (r.switchScreen target).1 := by
  by_cases h : target = r.screen
  · exact Nat.le_of_eq (by rw [h, Monitor.switchScreen_self])
  · have := Monitor.number_switchScreen h c
    omega

/-- A number that has been used stays used. -/
theorem reached_of_change (hc : Change s m s' es) (h : c.Reached s k) : c.Reached s' k := by
  cases hc with
  | shown kept =>
    cases hr : s.monitor with
    | none => exact reached_of_none (kept.monitor_eq_none hr) kept.activationSeq h
    | some r =>
      obtain ⟨r', hr', same⟩ := kept.exists_monitor hr
      exact reached_of_monitor hr hr' kept.activationSeq same.seq
        (Nat.le_of_eq (same.number c).symm) h
  | picked | refreshed => exact h
  | fetched lines monitor =>
    refine reached_of_monitor monitor rfl rfl rfl ?_ h
    cases c with
    | ticks | logs => exact Nat.le_refl _
  -- the number may have gone up, so all the more it has been used
  | switched target monitor other =>
    exact reached_of_monitor monitor rfl rfl (Monitor.switchScreen_frame _ target).1
      (number_le_switchScreen _ target) h
  | activated a is phase start =>
    -- the new activation has a number that none of the used ones has
    refine ⟨Nat.le_succ_of_le h.1, fun r hr hk => ?_⟩
    cases hr
    have hseq : k.1 = s.activationSeq + 1 := by rw [hk, start]; rfl
    have := h.1
    omega
  | disconnected =>
    exact reached_of_none (by simp only [disconnect, stopMonitor_eq])
      (by simp only [disconnect, stopMonitor_eq]) h
  | reconfigured | broke =>
    exact reached_of_none (by simp only [stopMonitor_eq]) (by simp only [stopMonitor_eq]) h
  | fatalShown =>
    exact reached_of_none (by simp only [showFatal, stopMonitor_eq])
      (by simp only [showFatal, stopMonitor_eq]) h
  | exited =>
    cases hr : s.monitor with
    | none =>
      have hm : s.exit.1.monitor = none := by rw [exit, hr]; rfl
      exact reached_of_none (s := s) hm rfl h
    | some r =>
      have hm : s.exit.1.monitor = some r.stopWaits := by rw [exit, hr]; rfl
      refine reached_of_monitor hr hm rfl rfl ?_ h
      rw [Monitor.number_stopWaits]
      exact Nat.le_succ _

/-! ## Passages

Only rounds start timers.  A round begins with an activation, where a home is entered, and where a
timer comes back that is still wanted, so the list of what a message changes tells which timers it
starts. -/

/-- What a message means for a chain, and what waits of it are started. -/
inductive Passage (c : Chain) (s : Session) (m : Message) (s' : Session) (es : List Effect) :
    Prop where
  /-- No monitor is up after it. -/
  | gone (monitor : s'.monitor = none)
  /-- The number is kept.  A timer of the chain is replaced by the next one, if it was still wanted. -/
  | kept {r r' : Monitor} (before : s.monitor = some r) (after : s'.monitor = some r')
      (link : c.link r' = c.link r) (home : r'.screen = c.home ↔ r.screen = c.home)
      (stopped : r'.isStopped = r.isStopped)
      (starts : es.filterMap c.ofEffect? =
        if c.ofMessage? m = some (c.link r) ∧ r.screen = c.home then [c.link r] else [])
  /-- There is a number that was never used before.  A timer is started if it is wanted. -/
  | fresh {r' : Monitor} (after : s'.monitor = some r') (new : ¬ c.Reached s (c.link r'))
      (starts : es.filterMap c.ofEffect? =
        if r'.screen = c.home ∧ r'.isStopped = false then [c.link r'] else [])

/-- What a chain asks for, or waits with, is part of a round. -/
theorem kind_of_link {e : Effect} (h : c.ofEffect? e = some k ∨ c.ofRequest? e = some k) :
    e.kind = .round := by
  cases e with
  | scheduleTick | scheduleLogTick | watchLog | fetchLogs | sampleTraffic => rfl
  | emit | quit | clearScreen | savePreferences | awaitContextEnd | awaitReady =>
    cases c with
    | ticks | logs =>
      rcases h with h | h
      · exact nomatch h
      · exact nomatch h

/-- A session does not begin with timers or requests. -/
theorem not_link_of_mem_opening {config : Config} {prefs : Preferences} {logs : LogSource}
    {size : TerminalSize} {e : Effect} (he : e ∈ opening config prefs logs size) :
    ¬ (c.ofEffect? e = some k ∨ c.ofRequest? e = some k) := by
  intro hk
  have hround := kind_of_link hk
  rcases begun_cases config prefs logs size with ⟨-, -, hopening⟩ | ⟨-, -, cause, hopening⟩
  · rw [hopening] at he
    exact absurd he List.not_mem_nil
  · rw [hopening] at he
    rcases List.mem_cons.1 he with rfl | he
    · exact nomatch hround
    · rw [List.mem_singleton.1 he] at hround
      exact nomatch hround

/-- Effects outside a round start no timer. -/
theorem ofEffect?_of_kind {e : Effect} (h : e.kind ≠ .round) : c.ofEffect? e = none := by
  cases hk : c.ofEffect? e with
  | none => rfl
  | some k => exact absurd (kind_of_link (Or.inl hk)) h

/-- Different chains have different homes. -/
theorem home_injective {c d : Chain} (h : c.home = d.home) : c = d := by
  cases c with
  | ticks | logs =>
    cases d with
    | ticks | logs => first | rfl | exact nomatch h

/-- A higher number of the same activation is new. -/
theorem not_reached_of_lt {r r' : Monitor} (hr : s.monitor = some r)
    (hseq : r'.seq = r.seq) (hlt : c.number r < c.number r') : ¬ c.Reached s (c.link r') := by
  intro hreached
  have hle : c.number r' ≤ c.number r := hreached.2 r hr hseq
  omega

/-- To change the screen brings a new number if home is left or entered, and keeps the number else. -/
theorem passage_switched (h : s.Scoped) {r : Monitor} (hr : s.monitor = some r) {target : Screen}
    (hne : target ≠ r.screen) (hp : (r.switchScreen target).1.Placed)
    (hstopped : r.isStopped = false) :
    Passage c s m { s with monitor := some (r.switchScreen target).1 }
      (r.switchScreen target).1.round := by
  have hnumber := Monitor.number_switchScreen hne c
  have hscreen := Monitor.screen_switchScreen hne
  have hseq := (Monitor.switchScreen_frame r target).1
  have hstopped' := (Monitor.isStopped_switchScreen r target).trans hstopped
  have hlinks := Monitor.links_round hp (Monitor.scoped_switchScreen (h.monitor r hr) target) c
  by_cases hleft : r.screen = c.home ∨ target = c.home
  · -- home is left or entered, and the number is a new one
    have hlt : c.number r < c.number (r.switchScreen target).1 := by
      rw [hnumber]
      rcases hleft with hleft | hleft
      · rw [if_pos hleft]
        omega
      · rw [if_pos hleft]
        omega
    refine .fresh rfl (not_reached_of_lt hr hseq hlt) ?_
    rw [hlinks, hstopped']
    simp
  · -- another pair of screens, which is no concern of the chain
    rw [not_or] at hleft
    have hsame : c.number (r.switchScreen target).1 = c.number r := by
      rw [hnumber, if_neg hleft.1, if_neg hleft.2]
      rfl
    refine .kept hr rfl (by rw [Chain.link, Chain.link, hseq, hsame]) ?_
      (hstopped'.trans hstopped.symm) ?_
    · rw [hscreen]
      exact ⟨fun h => absurd h hleft.2, fun h => absurd h hleft.1⟩
    · rw [hlinks, hscreen, if_neg hleft.2, if_neg (fun h => hleft.1 h.2)]

/-- Every message is one of the three for either chain. -/
theorem passage_update (h : s.Scoped) (ht : s.terminated = false) (m : Message) (c : Chain) :
    Passage c s m (s.update m).1 (s.update m).2.flatten := by
  have hscoped := h.update m
  have hchange := update_change (h.standing ht) ht m
  generalize (s.update m).1 = s', (s.update m).2.flatten = es at hscoped hchange
  cases hchange with
  | shown kept silent saving unheeded =>
    cases hr : s.monitor with
    | none => exact .gone (kept.monitor_eq_none hr)
    | some r =>
      obtain ⟨r', hr', same⟩ := kept.exists_monitor hr
      have hnone : es.filterMap c.ofEffect? = [] :=
        List.filterMap_eq_nil_iff.2 fun e he => ofEffect?_of_kind (by rw [silent e he]; decide)
      refine .kept hr hr' (same.link c) (by rw [same.screen]) same.isStopped ?_
      rw [hnone, if_neg (fun hm => unheeded c r hr hm.1 hm.2)]
  | picked mode mem phase =>
    exact .gone ((h.standing ht).monitor_eq_none (by rw [phase]; decide))
  | refreshed d monitor timer home =>
    refine .kept monitor monitor rfl Iff.rfl rfl ?_
    rw [Monitor.links_round (h.placed ht monitor) (h.monitor _ monitor)]
    -- each chain has a home of its own, so the other one's timers start nothing here
    by_cases hcd : c = d
    · rw [hcd, if_pos home, if_pos ⟨timer, home⟩]
    · have hhome : ¬ _ = c.home := fun hc => hcd (home_injective (hc.symm.trans home))
      rw [if_neg hhome, if_neg (fun hm => hhome hm.2)]
  -- lines that come in answer no timer, and start none
  | fetched lines monitor answer =>
    have hm : c.ofMessage? m = none := by
      rw [answer]
      cases c with
      | ticks | logs => rfl
    refine .kept monitor rfl ?_ Iff.rfl rfl ?_
    · cases c with
      | ticks | logs => rfl
    · rw [hm, if_neg (fun h => by cases h.1)]
      rfl
  | switched target monitor other =>
    exact passage_switched h monitor other (hscoped.placed ht rfl) (h.going ht _ monitor)
  -- the numbers of an activation are new, since the activation is
  | activated a is phase start =>
    have hseq := hscoped.seq _ rfl
    refine .fresh rfl (fun hnew => ?_) ?_
    · have hle : _ ≤ s.activationSeq := hnew.1
      rw [Chain.link, hseq] at hle
      exact absurd hle (Nat.not_succ_le_self _)
    · have hnone : (a.waits (s.activationSeq + 1)).filterMap c.ofEffect? = [] :=
        List.filterMap_eq_nil_iff.2 fun e he =>
          ofEffect?_of_kind (by rw [kind_of_mem_waits he]; decide)
      rw [List.filterMap_append, hnone, List.nil_append,
        Monitor.links_round (hscoped.placed ht rfl) (hscoped.monitor _ rfl), hscoped.going ht _ rfl]
      simp
  | disconnected => exact .gone (by simp only [disconnect, stopMonitor_eq])
  | reconfigured | broke => exact .gone (by simp only [stopMonitor_eq])
  | fatalShown => exact .gone (by simp only [showFatal, stopMonitor_eq])
  | exited =>
    cases hr : s.monitor with
    | none => exact .gone (by rw [exit, hr]; rfl)
    | some r =>
      have hm : s.exit.1.monitor = some r.stopWaits := by rw [exit, hr]; rfl
      -- to end the waits is to move on to the next number
      have hlt : c.number r < c.number r.stopWaits := by
        rw [Monitor.number_stopWaits]
        exact Nat.lt_succ_self _
      refine .fresh hm (not_reached_of_lt hr rfl hlt) ?_
      rw [Monitor.isStopped_stopWaits, if_neg (fun h => by cases h.2)]
      cases c with
      | ticks | logs => rfl

/-! ## Effects of a chain -/

/-- A session that is over asks for nothing. -/
theorem live_of_mem_update {e : Effect} (he : e ∈ (s.update m).2.flatten) : s.terminated = false := by
  cases ht : s.terminated with
  | false => rfl
  | true =>
    rw [update_of_terminated ht, Command.flatten_none] at he
    exact absurd he List.not_mem_nil

/-- What is asked for on behalf of a chain is part of a round of the monitor that is up. -/
theorem mem_round_of_update (h : s.Scoped) (ht : s.terminated = false) {e : Effect}
    (he : e ∈ (s.update m).2.flatten) (hround : e.kind = .round) :
    ∃ r, (s.update m).1.monitor = some r ∧ (s.update m).1.terminated = false ∧ e ∈ r.round := by
  have hchange := update_change (h.standing ht) ht m
  generalize (s.update m).1 = s', (s.update m).2.flatten = es at hchange he
  -- rounds are asked for by three changes only, each of which leaves the monitor up
  cases hchange with
  | shown kept silent =>
    rw [silent e he] at hround
    exact nomatch hround
  | picked | disconnected | reconfigured =>
    rw [List.mem_singleton.1 he] at hround
    exact nomatch hround
  | fetched | fatalShown => exact absurd he List.not_mem_nil
  | broke | exited =>
    rcases List.mem_cons.1 he with rfl | he
    · exact nomatch hround
    · rw [List.mem_singleton.1 he] at hround
      exact nomatch hround
  | refreshed d monitor => exact ⟨_, monitor, ht, he⟩
  | switched target monitor other => exact ⟨_, rfl, ht, he⟩
  | activated a =>
    rcases List.mem_append.1 he with he | he
    · rw [kind_of_mem_waits he] at hround
      exact nomatch hround
    · exact ⟨_, rfl, ht, he⟩

/-! ## Effects of the end, and of the settings -/

/-- Only what is over asks for the end of the loop. -/
theorem terminated_of_mem_quit (hc : Change s m s' es) (he : .quit ∈ es) : s'.terminated = true := by
  cases hc with
  | shown kept silent => exact nomatch silent _ he
  | picked | disconnected | reconfigured => exact nomatch List.mem_singleton.1 he
  | refreshed | switched => exact nomatch kind_of_mem_round he
  | fetched | fatalShown => exact absurd he List.not_mem_nil
  | activated =>
    rcases List.mem_append.1 he with he | he
    · exact nomatch kind_of_mem_waits he
    · exact nomatch kind_of_mem_round he
  | broke | exited => rfl

/-- A message that ends a session ends all of its waits. -/
theorem isStopped_of_change (hc : Change s m s' es) (ht : s.terminated = false)
    (ht' : s'.terminated = true) {r : Monitor} (hr : s'.monitor = some r) : r.isStopped = true := by
  have hlive : s'.terminated ≠ false := by rw [ht']; decide
  cases hc with
  | shown kept => exact absurd (kept.terminated.trans ht) hlive
  | picked | refreshed | fetched | switched | activated => exact absurd ht hlive
  | disconnected =>
    simp only [disconnect, stopMonitor_eq] at hlive
    exact absurd ht hlive
  | reconfigured =>
    simp only [stopMonitor_eq] at hlive
    exact absurd ht hlive
  | fatalShown =>
    simp only [showFatal, stopMonitor_eq] at hlive
    exact absurd ht hlive
  | broke =>
    simp only [stopMonitor_eq] at hr
    cases hr
  -- of the ways to end, only this one leaves a monitor up
  | exited =>
    obtain ⟨q, -, rfl⟩ := Option.map_eq_some_iff.1 hr
    exact Monitor.isStopped_stopWaits q

/-- Preferences are saved from the settings screen only. -/
theorem settings_of_mem_save (hc : Change s m s' es) (ht : s.terminated = false) {p : Preferences}
    (he : .savePreferences p ∈ es) :
    s'.terminated = false ∧ ∃ r, s'.monitor = some r ∧ r.screen = .settings := by
  cases hc with
  | shown kept silent saving =>
    obtain ⟨r, hr, hscreen⟩ := saving p he
    obtain ⟨r', hr', same⟩ := kept.exists_monitor hr
    exact ⟨kept.terminated.trans ht, r', hr', same.screen.trans hscreen⟩
  | picked | disconnected | reconfigured => exact nomatch List.mem_singleton.1 he
  | refreshed | switched => exact nomatch kind_of_mem_round he
  | fetched | fatalShown => exact absurd he List.not_mem_nil
  | activated =>
    rcases List.mem_append.1 he with he | he
    · exact nomatch kind_of_mem_waits he
    · exact nomatch kind_of_mem_round he
  | broke | exited =>
    rcases List.mem_cons.1 he with he | he
    · exact nomatch he
    · exact nomatch List.mem_singleton.1 he

end Session
end TunnelBoard
