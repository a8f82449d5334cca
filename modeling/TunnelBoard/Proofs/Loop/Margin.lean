import TunnelBoard.Proofs.Loop.Core
/-
  The margin of a loop: what goes on beside its core.

  `Core` has the messages and the tasks.  What is left are the events that wait for the owner, the
  writer of preferences and the signals of data planes, and few moves touch them.  `Aside` lists what
  a move can do to the margin, and `aside_of_step` says that the list is complete, so that nobody who
  follows an event or a request through a run opens the moves again.

  Requests are worth a word.  As long as there is a writer, a request takes two moves: one puts it
  into the writer's slot, and the other rings the bell or finds the writer dead (`put`, then `rang` or
  `saved`).  In between, the request is still the next effect, and `placed` tells that it lies in the
  slot already.  Once the writer was found dead, the loop saves at once.  An event enters the queue
  with the move that emits it, or with a frame that cannot be written.  A signal is given by the world
  and never taken back (`signals_step`).
-/

namespace TunnelBoard

/-- Events, the writer and signals. -/
structure Margin where
  events : EventQueue
  writer : PreferencesWriter
  placed : Bool
  writerLost : Bool
  signals : List Nat

/-- An effect that touches nothing of the margin. -/
def Effect.isStill : Effect → Bool
  | emit _ | savePreferences _ => false
  | _ => true

/-- A move that touches nothing of the margin. -/
def Move.isStill : Move → Bool
  | .handle | .leave | .finish | .wake _ | .lapse _ | .post _ | .receive _ | .endScope _ | .append _
  | .announce | .pass _ => true
  | _ => false

namespace Loop

/-- The part of a loop that lies beside its core. -/
def margin (l : Loop) : Margin := ⟨l.events, l.writer, l.placed, l.writerLost, l.world.signals⟩

/-- What a move does to the margin of a loop. -/
inductive Aside (l : Loop) : Move → Margin → Prop where
  | kept {m : Move} (still : m.isStill) : Aside l m l.margin
  | performed {e : Effect} {rest : List Effect} (effects : l.effects = e :: rest) (still : e.isStill) :
      Aside l .perform l.margin
  | emitted {e : Event} {rest : List Effect} (effects : l.effects = .emit e :: rest) :
      Aside l .perform { l.margin with events := (l.events.push e).1 }
  | failed (cause : Text) :
      Aside l (.failPaint cause)
        { l.margin with events := (l.events.push (.error (.failure (.terminal cause)))).1 }
  | took {e : Event} {rest : List Event} (events : l.events.events = e :: rest) :
      Aside l .takeEvent { l.margin with events := { l.events with events := rest } }
  /-- A request comes into the writer's slot. -/
  | put {p : Preferences} {rest : List Effect} (effects : l.effects = .savePreferences p :: rest)
      (going : l.writerLost = false) (fresh : l.placed = false) :
      Aside l .place { l.margin with writer := l.writer.put p, placed := true }
  /-- The bell rings for the request in the slot. -/
  | rang {p : Preferences} {rest : List Effect} (effects : l.effects = .savePreferences p :: rest)
      (going : l.writerLost = false) (placed : l.placed = true) (alive : l.writer.task ≠ .dead) :
      Aside l .perform { l.margin with writer := { l.writer with bell := true }, placed := false }
  /-- The loop saves by itself, for there is no writer. -/
  | saved {p : Preferences} {rest : List Effect} (effects : l.effects = .savePreferences p :: rest)
      (alone : l.writerLost = true ∨ l.writer.task = .dead) :
      Aside l .perform
        { l.margin with
          writer := { l.writer with store := (l.writer.store.save p).1 }
          placed := l.writerLost && l.placed
          writerLost := true }
  | wrote {w : PreferencesWriter} {records : List LogRecord}
      (step : l.writer.step = some (w, records)) : Aside l .stepWriter { l.margin with writer := w }
  | closed : Aside l .close { l.margin with writer := l.writer.close }
  | signalled (id : Nat) : Aside l (.signal id) { l.margin with signals := l.world.signals ++ [id] }

variable {l l' : Loop}

/-! ## Carrying out an effect

Only two kinds of effects touch the margin: events, and requests to save.  What becomes of a request
depends on whether there is a writer, which gives the three cases. -/

/-- Records are no part of the margin. -/
@[simp] theorem margin_report (l : Loop) (records : List LogRecord) :
    (l.report records).margin = l.margin := rfl

/-- To post a message touches nothing of the margin. -/
theorem margin_post (l : Loop) (m : Message) : (l.post m).margin = l.margin := by
  unfold post
  split
  · rfl
  · rfl
  · rfl
  · rfl

/-- Of the readings there is nothing in the margin either. -/
theorem margin_readTraffic (l : Loop) :
    ({ l with world := l.world.readTraffic.2 } : Loop).margin = l.margin := by
  obtain ⟨readings, hworld⟩ := l.world.exists_readTraffic_eq
  rw [hworld]
  rfl

/-- To save without a writer changes the store that the writer has. -/
theorem margin_saveInline (l : Loop) (p : Preferences) :
    (l.saveInline p).margin =
      { l.margin with writer := { l.writer with store := (l.writer.store.save p).1 } } := by
  unfold saveInline
  dsimp only
  split
  · rfl
  · rfl
  · rfl

/-- A loop that lost its writer saves by itself. -/
theorem margin_savePreferences_of_lost (h : l.writerLost = true) (p : Preferences) :
    (l.savePreferences p).margin =
      { l.margin with writer := { l.writer with store := (l.writer.store.save p).1 } } := by
  unfold savePreferences
  rw [if_pos h]
  exact margin_saveInline l p

/-- A loop that finds its writer dead takes the request out of the slot and saves by itself, from now
    on for good. -/
theorem margin_savePreferences_of_dead (h : l.writerLost = false) (hdead : l.writer.task = .dead)
    (p : Preferences) :
    (l.savePreferences p).margin =
      { l.margin with
        writer := { l.writer with store := (l.writer.store.save p).1 }
        placed := false
        writerLost := true } := by
  have hring : l.writer.ring = (l.writer, false) := if_pos hdead
  unfold savePreferences
  rw [if_neg (by rw [h]; decide)]
  simp only [hring]
  exact margin_saveInline _ p

/-- A loop that finds its writer alive rings the bell and does nothing else. -/
theorem margin_savePreferences_of_alive (h : l.writerLost = false) (halive : l.writer.task ≠ .dead)
    (p : Preferences) :
    (l.savePreferences p).margin =
      { l.margin with writer := { l.writer with bell := true }, placed := false } := by
  have hring : l.writer.ring = ({ l.writer with bell := true }, true) := if_neg halive
  unfold savePreferences
  rw [if_neg (by rw [h]; decide)]
  simp only [hring]
  rfl

/-- To carry out an effect emits an event, is one of the three steps of a request, or touches nothing. -/
theorem aside_of_performNext (h : l.performNext = some l') : l.Aside .perform l'.margin := by
  unfold performNext at h
  split at h
  · rename_i e rest hstage heffects
    split at h
    · exact nomatch h
    · rename_i hplaced
      cases h
      cases e with
      | emit e => exact .emitted heffects
      | quit | clearScreen | scheduleTick | scheduleLogTick | watchLog | awaitContextEnd
        | awaitReady => exact .performed heffects rfl
      | fetchLogs seq n feed limit =>
        rw [perform, margin_post]
        exact .performed heffects rfl
      | sampleTraffic seq n =>
        rw [perform, margin_post, margin_readTraffic { l with effects := rest }]
        exact .performed heffects rfl
      | savePreferences p =>
        rw [perform]
        -- a request comes here only when it lies in the slot, or when there is no writer any more
        rcases Bool.eq_false_or_eq_true l.writerLost with hlost | hlost
        · rw [margin_savePreferences_of_lost (l := { l with effects := rest }) hlost]
          have haside : l.Aside .perform _ := .saved heffects (Or.inl hlost)
          simp only [margin, hlost, Bool.true_and] at haside ⊢
          exact haside
        · have hplaced : l.placed = true := by simpa [mustPlace, hlost] using hplaced
          by_cases hdead : l.writer.task = .dead
          · rw [margin_savePreferences_of_dead (l := { l with effects := rest }) hlost hdead]
            have haside : l.Aside .perform _ := .saved heffects (Or.inr hdead)
            rw [hlost, Bool.false_and] at haside
            exact haside
          · rw [margin_savePreferences_of_alive (l := { l with effects := rest }) hlost hdead]
            exact .rang heffects hlost hplaced hdead
  · exact nomatch h

/-! ## Moves

One lemma for each kind of move.  The moves of the loop itself, apart from those that carry out an
effect, touch the margin only at the two ends of a session: a frame that cannot be written is told as an
event, and the queue that is closed closes the writer.  Of the moves beside the loop each has a part of
the margin to itself. -/

/-- To handle a message is up to the session, and only the effects of its answer will touch the
    margin. -/
theorem aside_of_handleNext (h : l.handleNext = some l') : l.Aside .handle l'.margin := by
  unfold handleNext at h
  split at h
  · split at h
    · cases h
    · cases h
      exact .kept rfl
  · cases h

/-- A frame that cannot be written is told to the owner. -/
theorem aside_of_failPaint {cause : Text} (h : l.failPaint cause = some l') :
    l.Aside (.failPaint cause) l'.margin := by
  unfold failPaint at h
  split at h
  · cases h
    exact .failed cause
  · cases h

/-- A loop that leaves tells its waits to stop, and the writer goes on until the queue is closed. -/
theorem aside_of_leave (h : l.leave = some l') : l.Aside .leave l'.margin := by
  unfold leave at h
  split at h
  · cases h
    exact .kept rfl
  · cases h

/-- The writer is closed together with the queue. -/
theorem aside_of_close (h : l.close = some l') : l.Aside .close l'.margin := by
  unfold close at h
  split at h
  · cases h
    exact .closed
  · cases h

/-- When a loop finishes, its writer has stopped already. -/
theorem aside_of_finish (h : l.finish = some l') : l.Aside .finish l'.margin := by
  unfold finish at h
  split at h
  · cases h
    exact .kept rfl
  · cases h

/-- What a wait takes from the world when it wakes is a change of the log, never a signal: whoever waits
    for readiness leaves the signal where it is. -/
theorem signals_take (awaited : Awaited) (w : World) : (awaited.take w).signals = w.signals := by
  cases awaited with
  | tick | logTick | logChange | contextEnd | ready | farewell => rfl

/-- A wait that wakes leaves the margin alone. -/
theorem aside_of_wake {i : Nat} (h : l.wake i = some l') : l.Aside (.wake i) l'.margin := by
  unfold wake at h
  split at h
  · rename_i t _
    split at h
    · cases h
      rw [margin_report]
      simp only [margin, signals_take t.awaited l.world]
      exact .kept rfl
    · cases h
  · cases h

/-- A wait that lapses leaves the margin alone. -/
theorem aside_of_lapse {i : Nat} (h : l.lapse i = some l') : l.Aside (.lapse i) l'.margin := by
  unfold lapse at h
  split at h
  · split at h
    · cases h
      exact .kept rfl
    · cases h
  · cases h

/-- The message of a wait goes into the queue of the core. -/
theorem aside_of_postWoken {i : Nat} (h : l.postWoken i = some l') : l.Aside (.post i) l'.margin := by
  unfold postWoken at h
  split at h
  · split at h
    · cases h
      rw [margin_post]
      exact .kept rfl
    · cases h
  · cases h

/-- A step of the writer is one of the loop. -/
theorem aside_of_stepWriter (h : l.stepWriter = some l') : l.Aside .stepWriter l'.margin := by
  obtain ⟨⟨w, records⟩, hstep, rfl⟩ := Option.map_eq_some_iff.1 h
  exact .wrote hstep

/-- A message that the loop is handed goes into the queue of the core. -/
theorem aside_of_receive {m : Message} (h : l.receive m = some l') :
    l.Aside (.receive m) l'.margin := by
  unfold receive at h
  split at h
  · cases h
    exact .kept rfl
  · cases h
    exact .kept rfl
  · cases h
  · cases h

/-- The owner takes the event at the front. -/
theorem aside_of_takeEvent {e : Event} (h : l.takeEvent = some (e, l')) :
    l.Aside .takeEvent l'.margin := by
  unfold takeEvent EventQueue.take at h
  split at h
  · rename_i hevents
    split at hevents
    · cases hevents
    · rename_i e' rest hcons
      cases hevents
      cases h
      exact .took hcons
  · cases h

/-- **What a move does beside the core** is in the list. -/
theorem aside_of_step {m : Move} (h : l.step m = some l') : l.Aside m l'.margin := by
  cases m with
  | perform => exact aside_of_performNext h
  | place =>
    obtain ⟨p, rest, -, heffects, hgoing, hfresh, rfl⟩ := place_eq_some h
    exact .put heffects hgoing hfresh
  | handle => exact aside_of_handleNext h
  | failPaint cause => exact aside_of_failPaint h
  | leave => exact aside_of_leave h
  | close => exact aside_of_close h
  | finish => exact aside_of_finish h
  | wake i => exact aside_of_wake h
  | lapse i => exact aside_of_lapse h
  | post i => exact aside_of_postWoken h
  | stepWriter => exact aside_of_stepWriter h
  | receive m => exact aside_of_receive h
  | takeEvent =>
    obtain ⟨⟨e, l₁⟩, htake, rfl⟩ := Option.map_eq_some_iff.1 h
    exact aside_of_takeEvent htake
  -- what the world does by itself is not in the margin, signals apart
  | endScope | append | pass =>
    cases h
    exact .kept rfl
  | announce =>
    simp only [step] at h
    split at h
    · cases h
    · cases h
      exact .kept rfl
  | signal id =>
    cases h
    exact .signalled id

/-- A signal that has been given stays so. -/
theorem signals_step {m : Move} (h : l.step m = some l') {x : Nat} (hx : x ∈ l.world.signals) :
    x ∈ l'.world.signals := by
  have haside := aside_of_step h
  have hsame : l'.world.signals = l'.margin.signals := rfl
  rw [hsame]
  generalize l'.margin = g at haside
  cases haside with
  | kept | performed | emitted | failed | took | put | rang | saved | wrote | closed => exact hx
  | signalled id => exact List.mem_append_left _ hx

end Loop
end TunnelBoard
