import TunnelBoard.Session.Loop
/-
  The core of a loop, and what one move does to it.

  Most of what a loop carries along does not matter to the tasks it keeps going: records, events that
  wait for their owner, the writer of preferences, traffic and time.  `Core` is the rest.  `Turn` lists
  what a move can do to a core, and `turn_of_step` says that the list is complete: whoever shows that
  something holds in every run shows that every turn keeps it (`run_induction`), and opens neither the
  moves nor the effects again.

  A loop lets anyone hand it any message.  What really comes from outside are keys, sizes and the words
  of the owner (`Message.isOutside`); the rest is posted by the loop's own waits.  A move is proper if
  it keeps to that, and the theory is about proper runs.
-/

namespace TunnelBoard

/-- Whether a message may come from the keyboard or from the owner. -/
def Message.isOutside : Message → Bool
  | .contextEnded _ | .result _ _ => false
  | _ => true

/-- Whether a move hands the loop only what may come from outside. -/
def Move.isProper : Move → Bool
  | .receive m => m.isOutside
  | _ => true

/-- A move beside the core. -/
def Move.isAside : Move → Bool
  | .place | .stepWriter | .takeEvent | .signal _ | .pass _ => true
  | _ => false

/-- The wait that an effect begins: what it waits for, and the token that ends it. -/
inductive Effect.Begins : Effect → Awaited → StopToken → Prop where
  | tick (seq n after due : Nat) (stop : StopToken) :
      Begins (.scheduleTick seq n after stop) (.tick seq n due) stop
  | logTick (seq n after due : Nat) (stop : StopToken) :
      Begins (.scheduleLogTick seq n after stop) (.logTick seq n due) stop
  | logChange (seq n : Nat) (stop : StopToken) :
      Begins (.watchLog seq n stop) (.logChange seq n) stop
  | contextEnd (seq : Nat) (context stop : StopToken) :
      Begins (.awaitContextEnd seq context stop) (.contextEnd seq context) stop
  | ready (seq signal : Nat) (stop : StopToken) :
      Begins (.awaitReady seq signal stop) (.ready seq signal) stop

/-- The message that answers an effect at once, while the log is `ring`. -/
inductive Effect.Asks (ring : LogRing) : Effect → Message → Prop where
  | logs (seq n limit : Nat) (feed : LogFeed) :
      Asks ring (.fetchLogs seq n feed limit) (.result seq (.logsFetched n (feed.tail ring limit)))
  | traffic (seq n : Nat) (traffic : Snapshot) :
      Asks ring (.sampleTraffic seq n) (.result seq (.trafficSampled n traffic))

/-- An effect that is carried out beside the core. -/
def Effect.isPlain : Effect → Bool
  | emit _ | quit | clearScreen | savePreferences _ => true
  | _ => false

/-- Whether a wait is for lines of the log, announced by the log itself. -/
def Awaited.isLogChange : Awaited → Bool
  | logChange _ _ => true
  | _ => false

/-- Reading the traffic uses up a reading and does nothing else. -/
theorem World.exists_readTraffic_eq (w : World) :
    ∃ readings, w.readTraffic.2 = { w with readings } := by
  unfold readTraffic
  split
  · exact ⟨_, rfl⟩
  · exact ⟨_, rfl⟩
  · exact ⟨_, rfl⟩

/-- The part of a loop that its tasks depend on: the session, what it still has to carry out, how far
    the loop has come, messages and waits, the scopes of the owner, and the log. -/
structure Core where
  session : Session
  effects : List Effect
  quitting : Bool
  stage : Stage
  queue : List Message
  waits : List Wait
  /-- The owner's scopes that have ended. -/
  outside : List Nat
  ring : LogRing
  /-- How many writers have completed lines of the log and are yet to announce them. -/
  unannounced : Nat

namespace Loop

/-- The part of a loop that its tasks depend on. -/
def core (l : Loop) : Core :=
  ⟨l.session, l.effects, l.quitting, l.stage, l.queue, l.waits, l.world.ended, l.world.log,
    l.world.unannounced⟩

end Loop

namespace Core

/-- Whether a scope has ended. -/
def hasEnded (c : Core) : Scope → Bool
  | .session => c.stage ≠ .running
  | .outside id => c.outside.contains id
  | scope => c.session.hasEnded scope

/-- What a move does to a core. -/
inductive Turn (c : Core) : Move → Core → Prop where
  | aside {m : Move} (aside : m.isAside) : Turn c m c
  | endedOutside (id : Nat) : Turn c (.endScope id) { c with outside := c.outside ++ [id] }
  /-- Bytes are added to the log. -/
  | appended (bytes : List UInt8) :
      Turn c (.append bytes)
        { c with
          ring := (c.ring.append bytes).1
          unannounced := c.unannounced + if (c.ring.append bytes).2 then 1 else 0 }
  | announced (waiting : c.unannounced ≠ 0) :
      Turn c .announce { c with ring := c.ring.announce, unannounced := c.unannounced - 1 }
  | received {m : Message} (outside : m.isOutside) (stage : c.stage = .running ∨ c.stage = .ending) :
      Turn c (.receive m) { c with queue := c.queue ++ [m] }
  | handled {m : Message} {rest : List Message} (queue : c.queue = m :: rest)
      (stage : c.stage = .running) (effects : c.effects = []) (quitting : c.quitting = false) :
      Turn c .handle
        { c with
          session := (c.session.update m).1
          effects := (c.session.update m).2.flatten
          queue := rest }
  /-- An effect beside the core is carried out. -/
  | performed {e : Effect} {rest : List Effect} (effects : c.effects = e :: rest)
      (stage : c.stage = .running) (plain : e.isPlain) :
      Turn c .perform { c with effects := rest, quitting := c.quitting || e = .quit }
  /-- Preferences are saved by the loop itself, and their store takes the loop with it. -/
  | brokeDown {p : Preferences} {rest : List Effect} (effects : c.effects = .savePreferences p :: rest)
      (stage : c.stage = .running) :
      Turn c .perform { c with effects := [], stage := .closed }
  | began {e : Effect} {rest : List Effect} {awaited : Awaited} {stop : StopToken}
      (effects : c.effects = e :: rest) (stage : c.stage = .running) (begins : e.Begins awaited stop) :
      Turn c .perform
        { c with
          effects := rest
          waits := c.waits ++ [Wait.make awaited (stop.merge (Token.ofScope .session))] }
  | asked {e : Effect} {rest : List Effect} {m : Message} (effects : c.effects = e :: rest)
      (stage : c.stage = .running) (asks : e.Asks c.ring m) :
      Turn c .perform { c with effects := rest, queue := c.queue ++ [m] }
  | failed (cause : Text) (stage : c.stage = .running) (effects : c.effects = [])
      (quitting : c.quitting = false) :
      Turn c (.failPaint cause)
        { c with session := { c.session with terminated := true }, quitting := true }
  | left (stage : c.stage = .running) (effects : c.effects = []) (quitting : c.quitting = true) :
      Turn c .leave
        { c with
          stage := .ending
          session := { c.session with monitor := c.session.monitor.map Monitor.stopWaits } }
  | closed (stage : c.stage = .ending) : Turn c .close { c with stage := .closed, queue := [] }
  | finished (stage : c.stage = .closed) : Turn c .finish { c with stage := .done }
  | woke {i : Nat} {t : Wait} (wait : c.waits[i]? = some t) (asleep : t.woken = false)
      (news : t.awaited.isLogChange → c.ring.changed = true) :
      Turn c (.wake i)
        { c with
          waits := c.waits.set i { t with woken := true }
          ring := if t.awaited.isLogChange then c.ring.takeChange.2 else c.ring }
  | lapsed {i : Nat} {t : Wait} (wait : c.waits[i]? = some t) (stop : t.stop.cancelled c.hasEnded) :
      Turn c (.lapse i) { c with waits := c.waits.eraseIdx i }
  | posted {i : Nat} {t : Wait} (wait : c.waits[i]? = some t)
      (stage : c.stage = .running ∨ c.stage = .ending) (woken : t.woken = true) :
      Turn c (.post i)
        { c with waits := c.waits.eraseIdx i, queue := c.queue ++ [t.awaited.message] }
  /-- A wait finds the queue closed. -/
  | dropped {i : Nat} {t : Wait} (wait : c.waits[i]? = some t)
      (stage : c.stage = .closed ∨ c.stage = .done) :
      Turn c (.post i) { c with waits := c.waits.eraseIdx i }

end Core

namespace Loop

variable {l l' : Loop}

/-- Which scopes have ended can be told from the core. -/
theorem hasEnded_core (l : Loop) (scope : Scope) : l.core.hasEnded scope = l.hasEnded scope := by
  cases scope with
  | session | activation | logVisit | outside => rfl

/-! ## Carrying out an effect

An effect is carried out by one of a few functions, and each gets a lemma that says what it does to
the core.  Only then are the effects gone through, one kind after the other. -/

/-- Records go to the log file of the program, and no task depends on them. -/
@[simp] theorem core_report (l : Loop) (records : List LogRecord) : (l.report records).core = l.core :=
  rfl

/-- No task depends on the events that wait for the owner. -/
@[simp] theorem core_emit (l : Loop) (e : Event) : (l.emit e).core = l.core := rfl

/-- A message that is posted goes to the end of the queue. -/
theorem core_post_of_open (h : l.stage = .running ∨ l.stage = .ending) (m : Message) :
    (l.post m).core = { l.core with queue := l.queue ++ [m] } := by
  unfold post
  split
  · rfl
  · rfl
  · rename_i hstage
    rw [hstage] at h
    rcases h with h | h
    · exact nomatch h
    · exact nomatch h
  · rename_i hstage
    rw [hstage] at h
    rcases h with h | h
    · exact nomatch h
    · exact nomatch h

/-- When the queue is closed, it is lost. -/
theorem core_post_of_closed (h : l.stage = .closed ∨ l.stage = .done) (m : Message) :
    (l.post m).core = l.core := by
  unfold post
  rcases h with h | h
  · rw [h]
  · rw [h]

/-- Of the readings there is nothing in the core. -/
theorem core_readTraffic (l : Loop) :
    ({ l with world := l.world.readTraffic.2 } : Loop).core = l.core := by
  obtain ⟨readings, hworld⟩ := l.world.exists_readTraffic_eq
  rw [hworld]
  rfl

/-- Saving changes nothing of the core, or the loop breaks down with the store. -/
theorem core_saveInline (l : Loop) (p : Preferences) :
    (l.saveInline p).core = l.core ∨
      (l.saveInline p).core = { l.core with stage := .closed, effects := [] } := by
  unfold saveInline
  dsimp only
  split
  · exact Or.inl rfl
  · exact Or.inl rfl
  · exact Or.inr rfl

/-- A request to save changes nothing of the core, whoever carries it out, or the loop breaks down
    with the store. -/
theorem core_savePreferences (l : Loop) (p : Preferences) :
    (l.savePreferences p).core = l.core ∨
      (l.savePreferences p).core = { l.core with stage := .closed, effects := [] } := by
  unfold savePreferences
  split
  · exact core_saveInline l p
  · dsimp only
    split
    · exact Or.inl rfl
    · exact core_saveInline _ p

/-- Carrying out the next effect is a turn. -/
theorem turn_of_performNext (h : l.performNext = some l') : l.core.Turn .perform l'.core := by
  unfold performNext at h
  split at h
  · rename_i e rest hstage heffects
    split at h
    · exact nomatch h
    cases h
    -- an effect beside the core only leaves the list, or ends the session
    have hplain : ∀ l₁ : Loop, e.isPlain → (l.quitting || e = .quit) = l₁.quitting →
        l₁.core = { l.core with effects := rest, quitting := l₁.quitting } →
        l.core.Turn .perform l₁.core := by
      intro l₁ hp hq hcore
      rw [hcore, ← hq]
      exact .performed heffects hstage hp
    -- an effect that is answered at once leaves the list and puts a message in the queue
    have hasked : ∀ (l₁ : Loop) (m : Message), e.Asks l.core.ring m →
        l₁.core = { l.core with effects := rest } → l.core.Turn .perform (l₁.post m).core := by
      intro l₁ m hm hcore
      have hs : l₁.stage = .running := (congrArg Core.stage hcore).trans hstage
      have hq : l₁.queue = l.queue := congrArg Core.queue hcore
      rw [core_post_of_open (Or.inl hs), hcore, hq]
      exact .asked heffects hstage hm
    -- the others begin waits
    cases e with
    | emit e => exact hplain _ rfl (by simp [perform, emit, report]) rfl
    | quit => exact hplain _ rfl (by simp [perform]) rfl
    | clearScreen => exact hplain _ rfl (by simp [perform]) rfl
    | savePreferences p =>
      rcases core_savePreferences { l with effects := rest } p with hcore | hcore
      · have hq : (({ l with effects := rest } : Loop).savePreferences p).quitting = l.quitting :=
          congrArg Core.quitting hcore
        refine hplain _ rfl (by rw [perform, hq]; simp) ?_
        rw [perform, hq]
        exact hcore
      · rw [perform, hcore]
        exact .brokeDown heffects hstage
    | scheduleTick seq n after stop => exact .began heffects hstage (.tick ..)
    | scheduleLogTick seq n after stop => exact .began heffects hstage (.logTick ..)
    | watchLog seq n stop => exact .began heffects hstage (.logChange ..)
    | awaitContextEnd seq context stop => exact .began heffects hstage (.contextEnd ..)
    | awaitReady seq signal stop => exact .began heffects hstage (.ready ..)
    | fetchLogs seq n feed limit => exact hasked _ _ (.logs ..) rfl
    | sampleTraffic seq n =>
      exact hasked _ _ (.traffic ..) (core_readTraffic { l with effects := rest })
  · exact nomatch h

/-! ## Moves

For each kind of move there is a lemma that says which turn it is.  None of them is about anything but
its own function, and `turn_of_step` puts them together. -/

/-- What `place` does, in full: the request goes into the slot. -/
theorem place_eq_some (h : l.place = some l') :
    ∃ p rest, l.stage = .running ∧ l.effects = .savePreferences p :: rest ∧
      l.writerLost = false ∧ l.placed = false ∧
      l' = { l with writer := l.writer.put p, placed := true } := by
  unfold place at h
  split at h
  · rename_i p rest hstage heffects
    split at h
    · rename_i hplace
      obtain ⟨hlost, hplaced⟩ := Bool.and_eq_true_iff.1 hplace
      cases h
      exact ⟨p, rest, hstage, heffects, by simpa using hlost, by simpa using hplaced, rfl⟩
    · exact nomatch h
  · exact nomatch h

/-- The writer's slot is no part of the core, so a request that comes into it is a turn beside the
    core. -/
theorem turn_of_place (h : l.place = some l') : l.core.Turn .place l'.core := by
  obtain ⟨p, rest, -, -, -, -, rfl⟩ := place_eq_some h
  exact .aside rfl

/-- An idle loop runs and has nothing to carry out. -/
theorem isIdle_iff : l.isIdle = true ↔ l.stage = .running ∧ l.effects = [] := by
  unfold isIdle
  rw [Bool.and_eq_true, decide_eq_true_eq, List.isEmpty_iff]

/-- The oldest message is handled by the session, whose effects are then to be carried out. -/
theorem turn_of_handleNext (h : l.handleNext = some l') : l.core.Turn .handle l'.core := by
  unfold handleNext at h
  split at h
  · rename_i hready
    obtain ⟨hidle, hquitting⟩ := Bool.and_eq_true_iff.1 hready
    obtain ⟨hstage, heffects⟩ := isIdle_iff.1 hidle
    split at h
    · exact nomatch h
    · rename_i m queue hqueue
      cases h
      have hquitting : l.quitting = false := by simpa using hquitting
      exact .handled hqueue hstage heffects hquitting
  · exact nomatch h

/-- A frame that cannot be written ends the session. -/
theorem turn_of_failPaint {cause : Text} (h : l.failPaint cause = some l') :
    l.core.Turn (.failPaint cause) l'.core := by
  unfold failPaint at h
  split at h
  · rename_i hready
    obtain ⟨hidle, hquitting⟩ := Bool.and_eq_true_iff.1 hready
    obtain ⟨hstage, heffects⟩ := isIdle_iff.1 hidle
    have hquitting : l.quitting = false := by simpa using hquitting
    cases h
    exact .failed cause hstage heffects hquitting
  · exact nomatch h

/-- A loop that leaves takes no further message, and the waits of its session are told to stop. -/
theorem turn_of_leave (h : l.leave = some l') : l.core.Turn .leave l'.core := by
  unfold leave at h
  split at h
  · rename_i hready
    obtain ⟨hidle, hquitting⟩ := Bool.and_eq_true_iff.1 hready
    obtain ⟨hstage, heffects⟩ := isIdle_iff.1 hidle
    cases h
    exact .left hstage heffects hquitting
  · exact nomatch h

/-- A queue that is closed loses what was in it. -/
theorem turn_of_close (h : l.close = some l') : l.core.Turn .close l'.core := by
  unfold close at h
  split at h
  · rename_i hstage
    cases h
    exact .closed hstage
  · exact nomatch h

/-- A loop that has been closed finishes, and of the core nothing changes but the stage. -/
theorem turn_of_finish (h : l.finish = some l') : l.core.Turn .finish l'.core := by
  unfold finish at h
  split at h
  · rename_i hready
    obtain ⟨hstage, -⟩ := Bool.and_eq_true_iff.1 hready
    cases h
    exact .finished (of_decide_eq_true hstage)
  · exact nomatch h

/-- A wait that wakes is marked, and one for the log takes the change it has waited for. -/
theorem turn_of_wake {i : Nat} (h : l.wake i = some l') : l.core.Turn (.wake i) l'.core := by
  unfold wake at h
  split at h
  · rename_i t hwait
    split at h
    · rename_i hwake
      obtain ⟨hasleep, hhappened⟩ := Bool.and_eq_true_iff.1 hwake
      cases h
      have hturn : l.core.Turn (.wake i) _ :=
        .woke hwait (by simpa using hasleep) (fun hlog => by
          cases ha : t.awaited with
          | logChange => rw [ha] at hhappened; exact hhappened
          | tick | logTick | contextEnd | ready | farewell => rw [ha] at hlog; exact nomatch hlog)
      -- only the log loses something by it
      cases ha : t.awaited with
      | logChange | tick | logTick | contextEnd | ready | farewell =>
        rw [ha] at hturn
        exact hturn
    · exact nomatch h
  · exact nomatch h

/-- A wait lapses when its token is cancelled. -/
theorem turn_of_lapse {i : Nat} (h : l.lapse i = some l') : l.core.Turn (.lapse i) l'.core := by
  unfold lapse at h
  split at h
  · rename_i t hwait
    split at h
    · rename_i hlapse
      obtain ⟨-, hstop⟩ := Bool.and_eq_true_iff.1 hlapse
      cases h
      have hended : l.core.hasEnded = l.hasEnded := funext l.hasEnded_core
      exact .lapsed hwait (hended ▸ hstop)
    · exact nomatch h
  · exact nomatch h

/-- A wait that woke posts its message, which is lost if the queue is closed by then. -/
theorem turn_of_postWoken {i : Nat} (h : l.postWoken i = some l') :
    l.core.Turn (.post i) l'.core := by
  unfold postWoken at h
  split at h
  · rename_i t hwait
    split at h
    · rename_i hwoken
      cases h
      -- whether the queue is still open decides if anybody gets to know
      by_cases hopen : l.stage = .running ∨ l.stage = .ending
      · have hcore := core_post_of_open (l := { l with waits := l.waits.eraseIdx i }) hopen
          t.awaited.message
        rw [hcore]
        exact .posted hwait hopen hwoken
      · have hclosed : l.stage = .closed ∨ l.stage = .done := by
          cases hs : l.stage with
          | running => exact absurd (Or.inl hs) hopen
          | ending => exact absurd (Or.inr hs) hopen
          | closed => exact Or.inl rfl
          | done => exact Or.inr rfl
        have hcore := core_post_of_closed (l := { l with waits := l.waits.eraseIdx i }) hclosed
          t.awaited.message
        rw [hcore]
        exact .dropped hwait hclosed
    · exact nomatch h
  · exact nomatch h

/-- A proper message goes to the end of the queue. -/
theorem turn_of_receive {m : Message} (hm : m.isOutside) (h : l.receive m = some l') :
    l.core.Turn (.receive m) l'.core := by
  unfold receive at h
  split at h
  · rename_i hstage
    cases h
    exact .received hm (Or.inl hstage)
  · rename_i hstage
    cases h
    exact .received hm (Or.inr hstage)
  · exact nomatch h
  · exact nomatch h

/-- **What a move does** to the core is in the list of turns. -/
theorem turn_of_step {m : Move} (hm : m.isProper) (h : l.step m = some l') :
    l.core.Turn m l'.core := by
  cases m with
  | place => exact turn_of_place h
  | perform => exact turn_of_performNext h
  | handle => exact turn_of_handleNext h
  | failPaint cause => exact turn_of_failPaint h
  | leave => exact turn_of_leave h
  | close => exact turn_of_close h
  | finish => exact turn_of_finish h
  | wake i => exact turn_of_wake h
  | lapse i => exact turn_of_lapse h
  | post i => exact turn_of_postWoken h
  | receive m => exact turn_of_receive hm h
  -- the rest is the world, which the loop has no say in
  | endScope id =>
    cases h
    exact .endedOutside id
  | append bytes =>
    cases h
    exact .appended bytes
  | announce =>
    simp only [step] at h
    split at h
    · exact nomatch h
    · rename_i hwaiting
      cases h
      exact .announced hwaiting
  | stepWriter =>
    obtain ⟨r, -, rfl⟩ := Option.map_eq_some_iff.1 h
    exact .aside rfl
  | takeEvent =>
    obtain ⟨⟨e, l₁⟩, htake, rfl⟩ := Option.map_eq_some_iff.1 h
    unfold takeEvent at htake
    split at htake
    · cases htake
      exact .aside rfl
    · exact nomatch htake
  | signal id =>
    cases h
    exact .aside rfl
  | pass time =>
    cases h
    exact .aside rfl

/-! ## Runs -/

/-- What every turn keeps, every proper run keeps. -/
theorem run_induction {P : Core → Prop}
    (step : ∀ (c : Core) m c', P c → c.Turn m c' → P c') {moves : List Move}
    (hp : ∀ m ∈ moves, m.isProper) (h : P l.core) (hr : l.run moves = some l') : P l'.core := by
  -- from the first move on, for any core that has the property
  induction moves generalizing l with
  | nil =>
    cases hr
    exact h
  | cons m moves ih =>
    obtain ⟨l₁, hstep, hrest⟩ := Option.bind_eq_some_iff.1 hr
    have hturn := turn_of_step (hp m List.mem_cons_self) hstep
    exact ih (fun n hn => hp n (List.mem_cons_of_mem _ hn)) (step _ _ _ h hturn) hrest

end Loop
end TunnelBoard
