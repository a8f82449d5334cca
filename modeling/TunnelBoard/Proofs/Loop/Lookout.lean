import TunnelBoard.Proofs.Log.Ring
import TunnelBoard.Proofs.Loop.Refresh
import TunnelBoard.Proofs.Loop.Watch
/-
  What the logs screen shows of a log that tells of new lines, and how it falls behind.

  The log tells by a flag, and one wait takes it.  A visit to the logs keeps one wait (`Paced.one`),
  but waits of earlier visits may still be there (`Observed.ended`).  One that wakes takes the flag
  with it, its message is dropped, for its number is not current, and nobody looks at the log until
  more lines are announced.

  A `Lookout` follows a run and keeps what the last look at the log found, and whether news that came
  after it went to a wait that had been ended.  As long as that has not happened the news is on its
  way (`UpToDate`), so a loop that has come to rest shows the newest lines.  Once it has happened they
  may be missing, and the last section has a run in which they are.

  News passes through four places (`HasNews`): lines that are completed are still to be announced;
  then the flag is raised; a wait takes it; and its message is put into the queue.  From there it
  leads to another look at the log.  Lines that were found pass from the queue to the screen, and
  meanwhile they are what is coming (`coming`).  At rest all of these places are empty, which is what
  the theorem comes down to.
-/

namespace TunnelBoard

/-- What a run has found out about the log. -/
structure Lookout where
  /-- The lines that were there when they were last asked for. -/
  seen : List Text
  /-- Whether the latest news since then went to a wait that had been ended. -/
  missed : Bool

namespace Lookout

/-- Nobody has looked yet. -/
def begun : Lookout := ⟨[], false⟩

/-- What a move adds. -/
def next (v : Lookout) (c : Core) : Move → Lookout
  | .perform =>
    match c.effects with
    | .fetchLogs _ _ feed limit :: _ => ⟨feed.tail c.ring limit, false⟩
    | _ => v
  | .announce => { v with missed := false }
  | .wake i =>
    match c.waits[i]? with
    | some t =>
      if t.awaited.isLogChange then { v with missed := t.stop.cancelled c.hasEnded } else v
    | none => v
  | _ => v

/-- Nobody looks while anything else is carried out. -/
theorem next_perform (v : Lookout) {c : Core} {e : Effect} {rest : List Effect}
    (he : c.effects = e :: rest) (hnone : Chain.logs.ofRequest? e = none) :
    v.next c .perform = v := by
  cases e with
  | fetchLogs => exact nomatch hnone
  | emit | quit | clearScreen | scheduleTick | scheduleLogTick | watchLog | sampleTraffic
    | awaitContextEnd | awaitReady | savePreferences => simp only [next, he]

end Lookout

namespace Loop

/-- What a run finds out about the log. -/
def lookout (l : Loop) (v : Lookout) : List Move → Lookout
  | [] => v
  | m :: moves =>
    match l.step m with
    | some l' => l'.lookout (v.next l.core m) moves
    | none => v

/-- What every turn keeps, together with what it adds to a lookout, every proper run keeps. -/
theorem lookout_induction {P : Core → Lookout → Prop}
    (step : ∀ c v m c', P c v → c.Turn m c' → P c' (v.next c m)) {moves : List Move} {l l' : Loop}
    {v : Lookout} (hp : ∀ m ∈ moves, m.isProper) (h : P l.core v) (hr : l.run moves = some l') :
    P l'.core (l.lookout v moves) := by
  induction moves generalizing l v with
  | nil =>
    cases hr
    exact h
  | cons m moves ih =>
    obtain ⟨l₁, hstep, hrest⟩ := Option.bind_eq_some_iff.1 hr
    have hturn := turn_of_step (hp m List.mem_cons_self) hstep
    have hnext : l.lookout v (m :: moves) = l₁.lookout (v.next l.core m) moves := by
      rw [lookout, hstep]
    rw [hnext]
    exact ih (fun n hn => hp n (List.mem_cons_of_mem _ hn)) (step _ _ _ _ h hturn) hrest

end Loop

namespace Core

variable {c c' : Core} {n : Nat} {v : Lookout} {r : Monitor}

/-! ## Lines and news on their way -/

/-- Whether lines are about to be asked for. -/
def IsAsking (c : Core) : Prop := ∃ e ∈ c.effects, ∃ k, Chain.logs.ofRequest? e = some k

/-- The lines that a monitor will show when the queue has been handled. -/
def coming (c : Core) (r : Monitor) : List Text :=
  c.queue.foldl (fun lines m => (m.lines? (Chain.logs.link r)).getD lines) r.logLines

/-- Whether news of the log is on its way to a monitor: it is still to be announced, or nobody has
    taken it, or the wait of the monitor has, or its message is in the queue. -/
inductive HasNews (c : Core) (r : Monitor) : Prop where
  | unannounced (waiting : c.unannounced ≠ 0)
  | raised (changed : c.ring.changed = true)
  | taken {t : Wait} (mem : t ∈ c.waits) (woken : t.woken = true)
      (current : Chain.logs.ofMessage? t.awaited.message = some (Chain.logs.link r))
  | posted {m : Message} (mem : m ∈ c.queue)
      (current : Chain.logs.ofMessage? m = some (Chain.logs.link r))

structure UpToDate (n : Nat) (v : Lookout) (c : Core) : Prop where
  bounded : c.ring.Bounded
  /-- What was seen at the last look gets shown. -/
  shown : ∀ r, c.session.monitor = some r → Chain.logs.Wants r → c.IsAsking ∨ c.coming r = v.seen
  /-- Nothing new has come since, or it is on its way. -/
  fresh : ∀ r, c.session.monitor = some r → Chain.logs.Wants r → v.missed = false →
    c.IsAsking ∨ c.HasNews r ∨ v.seen = c.ring.tail n

/-- With nothing to carry out, no lines are asked for. -/
theorem not_isAsking (he : c.effects = []) : ¬ c.IsAsking := by
  rintro ⟨e, hmem, -⟩
  rw [he] at hmem
  exact absurd hmem List.not_mem_nil

/-- Lines are asked for by an effect that is still to be carried out. -/
theorem isAsking_of_next {e : Effect} {rest : List Effect} (he : c.effects = e :: rest)
    (hnone : Chain.logs.ofRequest? e = none) (h : c.IsAsking) :
    IsAsking { c with effects := rest } := by
  obtain ⟨x, hx, k, hk⟩ := h
  rw [he] at hx
  rcases List.mem_cons.1 hx with rfl | hx
  · exact nomatch hnone.symm.trans hk
  · exact ⟨x, hx, k, hk⟩

/-- A message that brings no lines does not change what is coming. -/
theorem coming_append {m : Message} (hm : m.lines? (Chain.logs.link r) = none) :
    coming { c with queue := c.queue ++ [m] } r = c.coming r := by
  show (c.queue ++ [m]).foldl _ _ = c.queue.foldl _ _
  rw [List.foldl_append, List.foldl_cons, List.foldl_nil, hm]
  rfl

/-- No lines come from outside. -/
theorem lines?_of_isOutside {m : Message} (h : m.isOutside) (k : Link) : m.lines? k = none := by
  cases m with
  | contextEnded | result => exact nomatch h
  | key | resize | activate | showFatal | preferencesChanged | close => rfl

/-- A wait brings no lines, only the word that there are some. -/
theorem lines?_message (a : Awaited) (k : Link) : a.message.lines? k = none := by
  cases a with
  | tick | logTick | logChange | contextEnd | ready | farewell => rfl

/-! ## Turns that leave the session alone

News only goes from one place to the next here.  It is lost in one way, when a wait takes it that has
been ended, and then the lookout says so. -/

/-- Where the logs do not show there is nothing to keep up with. -/
theorem upToDate_of_not_wants (hb : c.ring.Bounded)
    (hnone : ∀ r, c.session.monitor = some r → ¬ Chain.logs.Wants r) : c.UpToDate n v :=
  ⟨hb, fun r hr hwants => absurd hwants (hnone r hr), fun r hr hwants => absurd hwants (hnone r hr)⟩

/-- News may pass from the waits to the queue, and everything else stays. -/
theorem UpToDate.of_monitor (h : c.UpToDate n v) (hm : c'.session.monitor = c.session.monitor)
    (hring : c'.ring = c.ring) (hunannounced : c'.unannounced = c.unannounced)
    (hasking : c.IsAsking → c'.IsAsking) (hcoming : ∀ r, c'.coming r = c.coming r)
    (hqueue : ∀ m ∈ c.queue, m ∈ c'.queue)
    (hwaits : ∀ r, c.session.monitor = some r → Chain.logs.Wants r → ∀ t ∈ c.waits,
      t.woken = true → Chain.logs.ofMessage? t.awaited.message = some (Chain.logs.link r) →
        c'.HasNews r) : c'.UpToDate n v := by
  refine ⟨hring ▸ h.bounded, ?_, ?_⟩
  · intro r hr hwants
    rw [hcoming]
    exact (h.shown r (hm ▸ hr) hwants).imp_left hasking
  · intro r hr hwants hmissed
    rw [hm] at hr
    rw [hring]
    refine (h.fresh r hr hwants hmissed).imp hasking (Or.imp_left fun hnews => ?_)
    cases hnews with
    | unannounced waiting => exact .unannounced (hunannounced ▸ waiting)
    | raised changed => exact .raised (hring ▸ changed)
    | taken mem woken current => exact hwaits r hr hwants _ mem woken current
    | posted mem current => exact .posted (hqueue _ mem) current

/-- Lines that are completed are news, for they are going to be announced. -/
theorem UpToDate.appended (h : c.UpToDate n v) (bytes : List UInt8) :
    UpToDate n v { c with
      ring := (c.ring.append bytes).1
      unannounced := c.unannounced + if (c.ring.append bytes).2 then 1 else 0 } := by
  refine ⟨c.ring.bounded_append bytes, h.shown, ?_⟩
  intro r hr hwants hmissed
  cases hcompleted : (c.ring.append bytes).2 with
  | true =>
    have hwaiting : c.unannounced + (if true = true then 1 else 0) ≠ 0 := Nat.succ_ne_zero _
    exact Or.inr (Or.inl (.unannounced hwaiting))
  -- no line is complete yet, so the log shows what it showed
  | false =>
    have hlines := LogRing.lines_append_of_incomplete hcompleted
    refine (h.fresh r hr hwants hmissed).imp_right (Or.imp (fun hnews => ?_) fun hseen => ?_)
    · cases hnews with
      | unannounced waiting => exact .unannounced waiting
      | raised changed => exact .raised ((c.ring.changed_append bytes).trans changed)
      | taken mem woken current => exact .taken mem woken current
      | posted mem current => exact .posted mem current
    · rw [hseen]
      exact (LogRing.tail_congr hlines n).symm

/-- An announcement is news for whoever takes it. -/
theorem UpToDate.announced (h : c.UpToDate n v) (unannounced : Nat) :
    UpToDate n { v with missed := false } { c with ring := c.ring.announce, unannounced } :=
  ⟨h.bounded, h.shown, fun _ _ _ _ => Or.inr (Or.inl (.raised rfl))⟩

/-- A look at the log finds the newest lines, and they are on their way to the screen. -/
theorem UpToDate.asked (h : c.UpToDate n v) (hb : c.Observed n) {e : Effect} {rest : List Effect}
    {m : Message} (he : c.effects = e :: rest) (ha : e.Asks c.ring m) :
    UpToDate n (v.next c .perform) { c with effects := rest, queue := c.queue ++ [m] } := by
  cases ha with
  | logs seq k limit feed =>
    have hnext : v.next c .perform = ⟨feed.tail c.ring limit, false⟩ := by
      simp only [Lookout.next, he]
    obtain ⟨r, hr, hfetch⟩ := hb.requests _ (he ▸ List.mem_cons_self) (seq, k) rfl
    cases hfetch
    rw [hnext]
    refine ⟨h.bounded, ?_, fun _ _ _ _ => Or.inr (Or.inr rfl)⟩
    intro q hq _
    cases hr.symm.trans hq
    -- the answer is the last in the queue, and it carries the current number
    have hlines := Message.lines?_eq_some (k := Chain.logs.link r) |>.2
      (rfl : Message.result r.seq (.logsFetched r.logSeq (c.ring.tail n)) = _)
    refine Or.inr ?_
    show (c.queue ++ [_]).foldl _ _ = c.ring.tail n
    rw [List.foldl_append, List.foldl_cons, List.foldl_nil]
    show Option.getD (Message.lines? _ (.result r.seq (.logsFetched r.logSeq (c.ring.tail n)))) _ = _
    rw [hlines]
    rfl
  | traffic seq k traffic =>
    rw [v.next_perform he rfl]
    exact h.of_monitor rfl rfl rfl (isAsking_of_next he rfl) (fun r => coming_append rfl)
      (fun m hm => List.mem_append_left _ hm) (fun r _ _ t ht woken current => .taken ht woken current)

/-- A wait wakes.  If it is one for lines, then it takes the news to the screen, or misses it. -/
theorem UpToDate.woke (h : c.UpToDate n v) (hb : c.Observed n) (hp : c.Paced .logs) {i : Nat}
    {t : Wait} (hi : c.waits[i]? = some t) (asleep : t.woken = false) :
    UpToDate n (v.next c (.wake i)) { c with
      waits := c.waits.set i { t with woken := true }
      ring := if t.awaited.isLogChange then c.ring.takeChange.2 else c.ring } := by
  have hset := perm_set hi { t with woken := true }
  -- a wait that sleeps is none of those that have taken news
  have hother : ∀ w ∈ c.waits, w.woken = true → w ∈ c.waits.set i { t with woken := true } := by
    intro w hw woken
    rcases List.mem_cons.1 ((perm_eraseIdx hi).mem_iff.1 hw) with rfl | hw
    · exact nomatch asleep.symm.trans woken
    · exact hset.mem_iff.2 (List.mem_cons_of_mem _ hw)
  cases hchange : t.awaited.isLogChange with
  | false =>
    have hnext : v.next c (.wake i) = v := by simp [Lookout.next, hi, hchange]
    rw [hnext]
    exact h.of_monitor rfl rfl rfl (fun ha => ha) (fun r => rfl) (fun m hm => hm)
      (fun r _ _ w hw woken current => .taken (hother w hw woken) woken current)
  | true =>
    have hnext : v.next c (.wake i) = { v with missed := t.stop.cancelled c.hasEnded } := by
      simp [Lookout.next, hi, hchange]
    rw [hnext]
    refine ⟨h.bounded, h.shown, ?_⟩
    intro r hr hwants hmissed
    -- a wait that has not been ended belongs to the visit that goes on
    obtain ⟨k, hk⟩ : ∃ k, Chain.logs.ofMessage? t.awaited.message = some k := by
      cases ha : t.awaited with
      | logChange seq m => exact ⟨_, rfl⟩
      | tick | logTick | contextEnd | ready | farewell =>
        rw [ha] at hchange
        exact nomatch hchange
    have hmem := List.mem_of_getElem? hi
    have hcurrent : k = Chain.logs.link r := by
      rcases hb.ended t hmem k hk with ⟨q, hq, hlink⟩ | hcancelled
      · cases hr.symm.trans hq
        exact hlink
      · have htoken : t.stop.cancelled c.hasEnded = true := by
          rw [hp.waitStop t hmem k hk, Token.cancelled_merge, hcancelled, Bool.true_or]
        exact nomatch hmissed.symm.trans htoken
    have hnew : { t with woken := true } ∈ c.waits.set i { t with woken := true } :=
      hset.mem_iff.2 List.mem_cons_self
    exact Or.inr (Or.inl (.taken hnew rfl (hcurrent ▸ hk)))

/-- A wait that took the news posts its message. -/
theorem UpToDate.posted (h : c.UpToDate n v) {i : Nat} {t : Wait} (hi : c.waits[i]? = some t) :
    UpToDate n v { c with
      waits := c.waits.eraseIdx i, queue := c.queue ++ [t.awaited.message] } := by
  refine h.of_monitor rfl rfl rfl (fun ha => ha) (fun r => coming_append (lines?_message _ _))
    (fun m hm => List.mem_append_left _ hm) ?_
  intro r _ _ w hw woken current
  rcases List.mem_cons.1 ((perm_eraseIdx hi).mem_iff.1 hw) with rfl | hw
  · exact .posted (List.mem_append_right _ List.mem_cons_self) current
  · exact .taken hw woken current

/-- A wait that lapses has no news for the visit that goes on. -/
theorem UpToDate.lapsed (h : c.UpToDate n v) (ho : c.Staged) (hp : c.Paced .logs) {i : Nat}
    {t : Wait} (hi : c.waits[i]? = some t) (hstop : t.stop.cancelled c.hasEnded = true) :
    UpToDate n v { c with waits := c.waits.eraseIdx i } := by
  refine h.of_monitor rfl rfl rfl (fun ha => ha) (fun r => rfl) (fun m hm => hm) ?_
  intro r hr hwants w hw woken current
  rcases List.mem_cons.1 ((perm_eraseIdx hi).mem_iff.1 hw) with rfl | hw
  · -- the wait that lapses has been ended, and that of the visit has not
    have htoken := hp.waitStop w (List.mem_of_getElem? hi) _ current
    rw [htoken, not_cancelled_of_wants ho hr hwants] at hstop
    exact nomatch hstop
  · exact .taken hw woken current

/-! ## Every turn

To handle a message is the turn by which the session changes.  A visit that begins looks at the log at
once; in one that goes on, the message may be the news itself, which leads to another look, or the
lines that were found, which come on the screen. -/

/-- Handling a message leads to another look at the log, or the news stays on its way. -/
theorem UpToDate.handled (h : c.UpToDate n v) (ho : c.Staged) {m : Message} {rest : List Message}
    (hq : c.queue = m :: rest) (heffects : c.effects = []) (hquitting : c.quitting = false) :
    UpToDate n v { c with
      session := (c.session.update m).1
      effects := (c.session.update m).2.flatten
      queue := rest } := by
  cases ht : c.session.terminated with
  | true =>
    rw [Session.update_of_terminated ht, Command.flatten_none]
    exact upToDate_of_not_wants h.bounded fun r hr => not_wants_of_terminated ho ht hquitting hr
  | false =>
    have hstanding := ho.session.standing ht
    have hchange := Session.update_change hstanding ht m
    -- a message is handled when nothing is left to carry out, so no look is about to be taken
    have hidle := not_isAsking heffects
    have hreading : ∀ r', (c.session.update m).1.monitor = some r' → Chain.logs.Wants r' →
        c.session.Reading m r' (c.session.update m).2.flatten := fun r' hr' hwants =>
      Session.reading_of_change hstanding hchange hr' hwants.1 hwants.2
    refine ⟨h.bounded, ?_, ?_⟩
    · intro r' hr' hwants'
      cases hreading r' hr' hwants' with
      | asked mem => exact Or.inl ⟨_, mem, _, rfl⟩
      | @kept r before link screen unheeded lines =>
        -- the lines that the message brings move from the queue to the screen
        have hwants : Chain.logs.Wants r := ⟨screen, ho.session.going ht r before⟩
        have hshown := (h.shown r before hwants).resolve_left hidle
        have hcoming : c.coming r = rest.foldl (fun lines m =>
            (m.lines? (Chain.logs.link r)).getD lines)
              ((m.lines? (Chain.logs.link r)).getD r.logLines) := by
          rw [coming, hq, List.foldl_cons]
        refine Or.inr ?_
        rw [← hshown, hcoming, coming, link, lines]
    · intro r' hr' hwants' hmissed
      cases hreading r' hr' hwants' with
      | asked mem => exact Or.inl ⟨_, mem, _, rfl⟩
      | @kept r before link screen unheeded lines =>
        have hwants : Chain.logs.Wants r := ⟨screen, ho.session.going ht r before⟩
        have hfresh := (h.fresh r before hwants hmissed).resolve_left hidle
        refine Or.inr (hfresh.imp_left fun hnews => ?_)
        cases hnews with
        | unannounced waiting => exact .unannounced waiting
        | raised changed => exact .raised changed
        | taken mem woken current => exact .taken mem woken (link ▸ current)
        | @posted x mem current =>
          -- had the message itself been the news, the visit would have asked for the lines
          rw [hq] at mem
          rcases List.mem_cons.1 mem with rfl | mem
          · exact absurd current unheeded
          · exact .posted mem (link ▸ current)

/-- Every turn keeps up with the log, as long as no news is missed. -/
theorem UpToDate.turn (h : c.UpToDate n v) (ho : c.Staged) (hp : c.Paced .logs) (hb : c.Observed n)
    {m : Move} (ht : c.Turn m c') : c'.UpToDate n (v.next c m) := by
  cases ht with
  | @aside m aside =>
    cases m with
    | place | stepWriter | takeEvent | signal | pass => exact h
    | perform | handle | failPaint | leave | close | finish | wake | lapse | post | receive | endScope
      | append | announce => exact nomatch aside
  | endedOutside | finished | failed =>
    exact h.of_monitor rfl rfl rfl (fun ha => ha) (fun r => rfl) (fun m hm => hm)
      (fun r _ _ t ht woken current => .taken ht woken current)
  | appended bytes => exact h.appended bytes
  | announced => exact h.announced _
  | received outside =>
    exact h.of_monitor rfl rfl rfl (fun ha => ha)
      (fun r => coming_append (lines?_of_isOutside outside _))
      (fun m hm => List.mem_append_left _ hm)
      (fun r _ _ t ht woken current => .taken ht woken current)
  | handled queue stage effects quitting => exact h.handled ho queue effects quitting
  | @performed e rest effects stage plain =>
    have hnone : Chain.logs.ofRequest? e = none := by
      cases e with
      | emit | quit | clearScreen | savePreferences => rfl
      | scheduleTick | scheduleLogTick | watchLog | fetchLogs | sampleTraffic | awaitContextEnd
        | awaitReady => exact nomatch plain
    rw [v.next_perform effects hnone]
    exact h.of_monitor rfl rfl rfl (isAsking_of_next effects hnone) (fun r => rfl) (fun m hm => hm)
      (fun r _ _ t ht woken current => .taken ht woken current)
  -- what is given up here belongs to the settings screen
  | brokeDown effects =>
    rw [v.next_perform effects rfl]
    exact upToDate_of_not_wants h.bounded fun r hr => not_wants_of_saving ho effects hr
  | @began e rest awaited stop effects stage begins =>
    have hnone := (ofMessage?_of_begins .logs begins).2.1
    rw [v.next_perform effects hnone]
    exact h.of_monitor rfl rfl rfl (isAsking_of_next effects hnone) (fun r => rfl) (fun m hm => hm)
      (fun r _ _ t ht woken current => .taken (List.mem_append_left _ ht) woken current)
  | asked effects stage asks => exact h.asked hb effects asks
  -- with the waits stopped there is nothing to keep up with
  | left =>
    refine upToDate_of_not_wants h.bounded ?_
    intro r' hr' hwants
    obtain ⟨r, -, rfl⟩ := Option.map_eq_some_iff.1 hr'
    exact nomatch (Monitor.isStopped_stopWaits r).symm.trans hwants.2
  | closed stage =>
    exact upToDate_of_not_wants h.bounded fun r hr =>
      not_wants_of_still ho (by rw [stage]; decide) hr
  | woke wait asleep => exact h.woke hb hp wait asleep
  | lapsed wait stop => exact h.lapsed ho hp wait stop
  | posted wait => exact h.posted wait
  | dropped wait stage =>
    refine upToDate_of_not_wants h.bounded fun r hr => not_wants_of_still ho (fun hs => ?_) hr
    rw [hs] at stage
    rcases stage with stage | stage
    · exact nomatch stage
    · exact nomatch stage

/-! ## Every state of a run

At the beginning no logs show.  At rest there is no place left where news could be, so that the screen
is up to date unless the latest news was missed. -/

variable (config : Config) (prefs : Preferences) (size : TerminalSize) (capacity : Nat)
  (store : PreferencesStore) (world : World)

/-- At the start there is no wait for lines. -/
theorem observed_start :
    (Loop.start (Session.make config prefs ⟨.ring, true⟩ size) capacity store world).core.Observed
      config.dashboard.logTailLines := by
  obtain ⟨-, -, -, hlogs, hsettings, -⟩ := Session.begun_frame config prefs ⟨.ring, true⟩ size
  have habsent : ∀ e ∈ Session.opening config prefs ⟨.ring, true⟩ size, ∀ k,
      ¬ (Chain.logs.ofEffect? e = some k ∨ Chain.logs.ofRequest? e = some k) :=
    fun e he k hk => Session.not_link_of_mem_opening he hk
  rw [core_start]
  exact ⟨hlogs, by rw [hsettings], fun e he k hk => absurd (Or.inr hk) (habsent e he k),
    fun e he k hk => absurd (Or.inl hk) (habsent e he k), fun t ht => absurd ht List.not_mem_nil,
    fun t ht => absurd ht List.not_mem_nil⟩

/-- At the start no logs show, so there is nothing to keep up with. -/
theorem upToDate_start (logs : LogSource) (hlog : world.log.Bounded) :
    (Loop.start (Session.make config prefs logs size) capacity store world).core.UpToDate n
      .begun := by
  obtain ⟨hmonitor, -⟩ := Session.begun_frame config prefs logs size
  rw [core_start]
  exact upToDate_of_not_wants hlog fun r hr => (nomatch hmonitor.symm.trans hr)

variable {config prefs size capacity store world}

/-- Every proper run keeps up with the log, as long as no news is missed. -/
theorem upToDate_run {moves : List Move} {l : Loop} (hlog : world.log.Bounded)
    (hp : ∀ m ∈ moves, m.isProper)
    (hr : (Loop.start (Session.make config prefs ⟨.ring, true⟩ size) capacity store world).run moves =
      some l) :
    l.core.Observed config.dashboard.logTailLines ∧
      l.core.UpToDate config.dashboard.logTailLines
        ((Loop.start (Session.make config prefs ⟨.ring, true⟩ size) capacity store world).lookout
          .begun moves) := by
  have hall := Loop.lookout_induction (P := fun c v => c.Staged ∧ c.Paced .logs ∧
    c.Observed config.dashboard.logTailLines ∧ c.UpToDate config.dashboard.logTailLines v)
    (fun c v m c' h ht => ?_) hp ⟨staged_start .., paced_start .., observed_start .., upToDate_start
      config prefs size capacity store world _ hlog⟩ hr
  · exact ⟨hall.2.2.1, hall.2.2.2⟩
  · obtain ⟨hs, hpaced, hb, hu⟩ := h
    exact ⟨hs.turn ht, hpaced.turn hs ht, hb.turn hs hpaced ht, hu.turn hs hpaced hb ht⟩

end Core

namespace Loop

/-- Whether all that is to be done about the log has been done: no message waits or is being handled,
    no lines are still to be announced, and no wait for lines can do anything. -/
def isAtRest (l : Loop) : Bool :=
  l.effects.isEmpty && l.queue.isEmpty && l.world.unannounced = 0 &&
    l.waits.all fun t => !t.awaited.isLogChange ||
      !(t.woken || t.canWake l.world l.hasEnded || t.canLapse l.hasEnded)

variable {l : Loop} {r : Monitor} {n : Nat}

/-- No wait for lines has anything to do at rest, so the log has nothing to tell. -/
theorem unchanged_of_isAtRest (h : l.isAtRest) {t : Wait} (ht : t ∈ l.waits)
    (hchange : t.awaited.isLogChange = true) : t.woken = false ∧ l.world.log.changed = false := by
  have hnothing := List.all_eq_true.1 (Bool.and_eq_true_iff.1 h).2 t ht
  rw [hchange] at hnothing
  simp only [Bool.not_true, Bool.false_or, Bool.not_eq_true', Bool.or_eq_false_iff] at hnothing
  obtain ⟨⟨hasleep, hwake⟩, -⟩ := hnothing
  refine ⟨hasleep, ?_⟩
  cases ha : t.awaited with
  | logChange seq n =>
    simp only [Wait.canWake, hasleep, ha] at hwake
    exact hwake
  | tick | logTick | contextEnd | ready | farewell =>
    rw [ha] at hchange
    cases hchange

/-- At rest no news is on its way: the wait of the visit would have taken it. -/
theorem not_hasNews_of_isAtRest (h : l.isAtRest) (hpaced : l.core.Paced .logs)
    (hobserved : l.core.Observed n) (hr : l.session.monitor = some r)
    (hwants : Chain.logs.Wants r) : ¬ l.core.HasNews r := by
  have hidle := h
  simp only [isAtRest, Bool.and_eq_true, List.isEmpty_iff, decide_eq_true_eq] at hidle
  obtain ⟨⟨⟨heffects, hqueue⟩, hunannounced⟩, -⟩ := hidle
  -- a wait of the visit that sleeps at rest has been told of no change
  have hstuck : ∀ t ∈ l.waits, ∀ k, Chain.logs.ofMessage? t.awaited.message = some k →
      t.woken = false ∧ l.world.log.changed = false := fun t ht k hk =>
    unchanged_of_isAtRest h ht (hobserved.waits t ht k hk)
  intro hnews
  -- each of the four places is empty at rest
  cases hnews with
  | unannounced waiting => exact waiting hunannounced
  | raised changed =>
    -- the visit has its wait, and a change that is raised would wake it
    have hone := hpaced.one r hr
    rw [if_pos hwants] at hone
    have hlink : Chain.logs.link r ∈ l.core.links .logs :=
      List.count_pos_iff.1 (by rw [hone]; exact Nat.one_pos)
    have hwaiting : Chain.logs.link r ∈
        l.waits.filterMap (Chain.logs.ofMessage? ·.awaited.message) := by
      simpa [Core.links, core, heffects, hqueue] using hlink
    obtain ⟨t, ht, hk⟩ := List.mem_filterMap.1 hwaiting
    exact Bool.false_ne_true ((hstuck t ht _ hk).2.symm.trans changed)
  | taken mem woken current =>
    exact Bool.false_ne_true ((hstuck _ mem _ current).1.symm.trans woken)
  | posted mem =>
    have mem : _ ∈ l.queue := mem
    rw [hqueue] at mem
    exact absurd mem List.not_mem_nil

/-- **The newest lines are not lost, but for late waits.**  In every run of a loop whose log tells of new
    lines, whenever it comes to rest while the logs show:

    * it shows what was there when the log was last looked at;
    * it is behind exactly if other lines have come since, and the news of them was taken by a wait that
      had been ended. -/
theorem newest_lines_unless_missed (config : Config) (prefs : Preferences) (size : TerminalSize)
    (capacity : Nat) (store : PreferencesStore) (world : World) {moves : List Move} {l : Loop}
    {r : Monitor} (hlog : world.log.Bounded) (hp : ∀ m ∈ moves, m.isProper)
    (hrun : (start (Session.make config prefs ⟨.ring, true⟩ size) capacity store world).run moves =
      some l)
    (hrest : l.isAtRest) (hlive : l.session.terminated = false) (hr : l.session.monitor = some r)
    (hscreen : r.screen = .logs) :
    let v := (start (Session.make config prefs ⟨.ring, true⟩ size) capacity store world).lookout
      .begun moves
    r.logLines = v.seen ∧
      (r.logLines ≠ l.world.log.tail config.dashboard.logTailLines ↔
        v.missed = true ∧ v.seen ≠ l.world.log.tail config.dashboard.logTailLines) := by
  intro v
  obtain ⟨hstaged, hpaced⟩ := Core.paced_run hp hrun .logs
  obtain ⟨hobserved, hupToDate⟩ := Core.upToDate_run hlog hp hrun
  have hwants : Chain.logs.Wants r := ⟨hscreen, hstaged.session.going hlive r hr⟩
  have hnothing := hrest
  simp only [isAtRest, Bool.and_eq_true, List.isEmpty_iff] at hnothing
  obtain ⟨⟨⟨heffects, hqueue⟩, -⟩, -⟩ := hnothing
  have hidle : ¬ l.core.IsAsking := Core.not_isAsking heffects
  -- with nothing in the queue, what is coming is what shows
  have hseen : r.logLines = v.seen := by
    have hshown := (hupToDate.shown r hr hwants).resolve_left hidle
    have hcoming : l.core.coming r = r.logLines := by
      show l.queue.foldl _ _ = _
      rw [hqueue]
      rfl
    exact hcoming.symm.trans hshown
  -- nothing was missed, and no news is on its way, so nothing new has come
  have hnewest : v.missed = false → v.seen = l.world.log.tail config.dashboard.logTailLines := by
    intro hmissed
    have hfresh := (hupToDate.fresh r hr hwants hmissed).resolve_left hidle
    exact hfresh.resolve_left (not_hasNews_of_isAtRest hrest hpaced hobserved hr hwants)
  refine ⟨hseen, ?_⟩
  rw [hseen]
  constructor
  · intro hbehind
    refine ⟨?_, hbehind⟩
    by_contra hmissed
    exact hbehind (hnewest (by simpa using hmissed))
  · rintro ⟨-, hbehind⟩
    exact hbehind

/-! ## Two runs -/

/-- From the screen of the data plane to the logs, and a first look at them. -/
def logsVisit : List Move :=
  entrance ++ [.handle] ++ press .tab ++ press .tab ++ [.perform, .perform, .handle]

/-- A line comes in and is announced. -/
def newLine : List Move := [.append [120, 10], .announce]

/-- The wait of the visit takes the news: it asks for the lines again, and they come in. -/
def newLineShown : List Move :=
  logsVisit ++ newLine ++ [.wake 2, .post 2, .handle, .perform, .perform, .handle]

/-- The operator looks at the settings and comes back.  Then it is the wait of the first visit that takes
    the news, and its message is dropped. -/
def newLineMissed : List Move :=
  logsVisit ++ press .backtab ++ press .tab ++ [.perform, .perform, .handle] ++ newLine ++
    [.wake 2, .post 2, .handle]

/-- A new line shows when the wait of the visit has told of it. -/
theorem newest_lines_after_visit :
    ∃ l r, (∀ m ∈ newLineShown, m.isProper) ∧ specimen.run newLineShown = some l ∧ l.isAtRest ∧
      l.session.monitor = some r ∧ r.screen = .logs ∧
      r.logLines = l.world.log.tail (Config.standard none).dashboard.logTailLines := by
  have hp : ∀ m ∈ newLineShown, m.isProper := by decide +kernel
  obtain ⟨l, r, hl, hr, hend⟩ := exists_of_run specimen newLineShown
    (fun l r => l.isAtRest && !l.session.terminated && r.screen = .logs) (by decide +kernel)
  simp only [Bool.and_eq_true, Bool.not_eq_true', decide_eq_true_eq] at hend
  obtain ⟨⟨hrest, hlive⟩, hscreen⟩ := hend
  have hnone : (specimen.lookout .begun newLineShown).missed = false := by decide +kernel
  have hlog : (World.make (.empty 100) []).log.Bounded := LogRing.bounded_empty 100
  have hexact := (newest_lines_unless_missed _ _ _ _ _ _ hlog hp hl hrest hlive hr hscreen).2
  refine ⟨l, r, hp, hl, hrest, hr, hscreen, ?_⟩
  by_contra hbehind
  exact nomatch hnone.symm.trans (hexact.1 hbehind).1

/-- A new line is lost on the logs screen when the wait of an earlier visit takes the news. -/
theorem lines_missed :
    ∃ l r, (∀ m ∈ newLineMissed, m.isProper) ∧ specimen.run newLineMissed = some l ∧ l.isAtRest ∧
      l.session.terminated = false ∧ l.session.monitor = some r ∧ r.screen = .logs ∧
      r.logLines ≠ l.world.log.tail l.session.settings.logTailLines := by
  have hp : ∀ m ∈ newLineMissed, m.isProper := by decide +kernel
  obtain ⟨l, r, hl, hr, hend⟩ := exists_of_run specimen newLineMissed
    (fun l r => l.isAtRest && !l.session.terminated && r.screen = .logs &&
      r.logLines ≠ l.world.log.tail l.session.settings.logTailLines) (by decide +kernel)
  simp only [Bool.and_eq_true, Bool.not_eq_true', decide_eq_true_eq] at hend
  obtain ⟨⟨⟨hrest, hlive⟩, hscreen⟩, hlines⟩ := hend
  exact ⟨l, r, hp, hl, hrest, hlive, hr, hscreen, hlines⟩

end Loop
end TunnelBoard
