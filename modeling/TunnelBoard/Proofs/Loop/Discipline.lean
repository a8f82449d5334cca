import TunnelBoard.Proofs.Loop.Ending
import TunnelBoard.Proofs.Loop.Trace
/-
  An owner who answers as often as it is asked loses no event.

  An event asks for an activation if it says that a mode was picked or that the data plane was lost.
  The rule for owners is that an activation is sent in answer to such an event, which has been taken
  from the buffer, and that each is answered once (`Loop.Disciplined`).  Apart from that anything may
  happen in any order: keys, time, the ends of contexts, moves of the loop, and the owner may read as
  late as it likes.

  1. at most two ordinary events are ever in the buffer, so a buffer with room for three never turns
     one away and never gives one up;
  2. whenever an activation is handled, the session takes it, unless it is over or shows a failure.

  The crux is one invariant of the phase, the line and the pledges (`Balance`).  The line are the
  ordinary events that the owner has not taken, in the buffer or still to be told; a pledge is an event
  that has been taken and not answered, or an activation that has been sent and not handled.  A session
  asks once and then waits, and it does not ask again before it has got what it waits for.  So a request
  is in one place at a time: at the end of the line, or pledged.
-/

namespace TunnelBoard

/-- Whether an event asks the owner for an activation. -/
def Event.wantsActivation : Event → Bool
  | modeSelected _ | runtimeDisconnected => true
  | reconfigure | exit | error _ => false

/-- The ordinary ones of some events. -/
def Event.ordinary (events : List Event) : List Event := events.filter (!·.isTerminal)

def Message.isActivation : Message → Bool
  | activate _ => true
  | _ => false

/-- Whether the owner sends an activation. -/
def Move.isAnswer : Move → Bool
  | receive m => m.isActivation
  | _ => false

/-- The ordinary events of two pieces are those of the one and then those of the other. -/
theorem Event.ordinary_append (xs ys : List Event) :
    Event.ordinary (xs ++ ys) = Event.ordinary xs ++ Event.ordinary ys := List.filter_append ..

/-- Effects that tell nothing add nothing to the line. -/
theorem Event.ordinary_eq_nil_of_kind {es : List Effect} (h : ∀ e ∈ es, e.kind ≠ .told) :
    Event.ordinary (es.filterMap Effect.event?) = [] := by
  have hnone : es.filterMap Effect.event? = [] :=
    List.filterMap_eq_nil_iff.2 fun e he => (Session.quiet_of_kind (h e he)).1
  rw [hnone]
  rfl

namespace Loop

/-- The events that the owner takes along a run, oldest first. -/
def received (l : Loop) (moves : List Move) : List Event :=
  trace (fun l m => if m = .takeEvent then l.events.events.head?.toList else []) l moves

/-- The events that are told along a run, oldest first. -/
def told (l : Loop) (moves : List Move) : List Event := trace (fun l m => m.tells l.effects) l moves

/-- Whether an owner keeps to the rule: when it sends an activation, it has sent fewer before than it
    has taken events that ask for one. -/
def Disciplined (l : Loop) (moves : List Move) : Prop :=
  ∀ i, (h : i < moves.length) → moves[i].isAnswer →
    (moves.take i).countP Move.isAnswer < (l.received (moves.take i)).countP Event.wantsActivation

instance (l : Loop) (moves : List Move) : Decidable (l.Disciplined moves) :=
  inferInstanceAs (Decidable (∀ i, (h : i < moves.length) → _))

/-- To keep to the rule with one more move is to keep to it before, and with that move. -/
theorem Disciplined.of_snoc {l : Loop} {ms : List Move} {m : Move} (h : l.Disciplined (ms ++ [m])) :
    l.Disciplined ms ∧ (m.isAnswer →
      ms.countP Move.isAnswer < (l.received ms).countP Event.wantsActivation) := by
  constructor
  · intro i hi hanswer
    have hlong : i < (ms ++ [m]).length := by
      rw [List.length_append]
      omega
    have hbefore := h i hlong
    rw [List.getElem_append_left hi, List.take_append_of_le_length (Nat.le_of_lt hi)] at hbefore
    exact hbefore hanswer
  · intro hanswer
    have hlast : ms.length < (ms ++ [m]).length := by simp
    have hnow := h ms.length hlast
    rw [List.getElem_concat_length rfl, List.take_left' rfl] at hnow
    exact hnow hanswer

end Loop

/-! ## The invariant

A session stands with its owner in one of five ways, and each of them bounds the line of ordinary events:
a mode is chosen; the owner was asked for an activation and may not know it yet; it knows; the monitor is
up; or all is over.  A message leads from one of them to the next, which is what `Balance.update` says. -/

/-- How a session stands with its owner: its phase, the pledges, and the line of ordinary events. -/
inductive Balance (s : Session) (pledges : Nat) (line : List Event) : Prop where
  /-- A mode is chosen, maybe once again. -/
  | choosing (phase : s.phase = .configuring) (none : pledges = 0) (line : line.Sublist [.reconfigure])
  /-- The owner has been asked for an activation, and may not know it yet. -/
  | asked {e : Event} (phase : s.phase = .waiting) (none : pledges = 0) (wants : e.wantsActivation)
      (line : line.Sublist [.reconfigure, e])
  /-- It knows, or the activation is on its way. -/
  | pledged (phase : s.phase = .waiting) (one : pledges ≤ 1) (line : line = [])
  | running (phase : s.phase = .runtime) (none : pledges = 0) (line : line = [])
  | finished (stop : s.terminated = true ∨ s.phase = .fatal) (line : line.length ≤ 2)

namespace Balance

variable {s s' : Session} {pledges pledges' : Nat} {line line' : List Event} {e : Event}

/-- A line in balance has at most two events, which is why the queue never has to drop one. -/
theorem length_le (h : Balance s pledges line) : line.length ≤ 2 := by
  cases h with
  | choosing phase none hline =>
    have hlength := hline.length_le
    rw [List.length_singleton] at hlength
    omega
  | asked phase none wants hline => exact hline.length_le
  | pledged phase one hline | running phase none hline =>
    rw [hline]
    exact Nat.zero_le 2
  | finished _ hline => exact hline

/-- Fewer pledges and a shorter line keep the balance. -/
theorem mono (h : Balance s pledges line) (hphase : s'.phase = s.phase)
    (hterminated : s'.terminated = s.terminated) (hpledges : pledges' ≤ pledges)
    (hline : line'.Sublist line) : Balance s' pledges' line' := by
  have hnil : line = [] → line' = [] := by
    intro hempty
    rw [hempty] at hline
    exact List.sublist_nil.1 hline
  cases h with
  | choosing phase none short =>
    exact .choosing (hphase.trans phase) (by omega) (hline.trans short)
  | asked phase none wants short =>
    exact .asked (hphase.trans phase) (by omega) wants (hline.trans short)
  | pledged phase one empty => exact .pledged (hphase.trans phase) (by omega) (hnil empty)
  | running phase none empty => exact .running (hphase.trans phase) (by omega) (hnil empty)
  | finished stop short =>
    rw [← hterminated, ← hphase] at stop
    exact .finished stop (Nat.le_trans hline.length_le short)

/-- The owner takes the first event of the line.  If it asks for an activation, it was the last. -/
theorem take (h : Balance s pledges (e :: line)) :
    Balance s (pledges + if e.wantsActivation then 1 else 0) line := by
  cases h with
  | choosing phase none short =>
    rcases List.cons_sublist_cons'.1 short with hnone | ⟨rfl, hrest⟩
    · exact nomatch hnone
    · exact .choosing phase none (hrest.trans (List.nil_sublist _))
  | @asked x phase none wants short =>
    rcases List.cons_sublist_cons'.1 short with hlast | ⟨rfl, hrest⟩
    · rcases List.cons_sublist_cons'.1 hlast with hnone | ⟨rfl, hrest⟩
      · exact nomatch hnone
      · refine .pledged phase ?_ (List.sublist_nil.1 hrest)
        rw [if_pos wants]
        omega
    · exact .asked phase none wants (hrest.trans (List.sublist_cons_self _ _))
  | pledged phase one empty | running phase none empty => exact nomatch empty
  | finished stop short => exact .finished stop (Nat.le_of_succ_le short)

/-- A session that goes on and has a mode to be picked. -/
theorem of_configuring (h : Balance s pledges line) (ht : s.terminated = false)
    (hphase : s.phase = .configuring) : pledges = 0 ∧ line.Sublist [.reconfigure] := by
  cases h with
  | choosing phase none short => exact ⟨none, short⟩
  | asked other | pledged other | running other => exact nomatch hphase.symm.trans other
  | finished stop =>
    rcases stop with hover | hfatal
    · exact nomatch ht.symm.trans hover
    · exact nomatch hphase.symm.trans hfatal

/-- A session that goes on and waits for an activation. -/
theorem of_waiting (h : Balance s pledges line) (ht : s.terminated = false)
    (hphase : s.phase = .waiting) : pledges = 0 ∨ (pledges = 1 ∧ line = []) := by
  cases h with
  | asked phase none => exact Or.inl none
  | pledged phase one empty =>
    rcases Nat.le_one_iff_eq_zero_or_eq_one.1 one with hnone | hone
    · exact Or.inl hnone
    · exact Or.inr ⟨hone, empty⟩
  | choosing other | running other => exact nomatch hphase.symm.trans other
  | finished stop =>
    rcases stop with hover | hfatal
    · exact nomatch ht.symm.trans hover
    · exact nomatch hphase.symm.trans hfatal

/-- A session that goes on and shows the monitor. -/
theorem of_runtime (h : Balance s pledges line) (ht : s.terminated = false)
    (hphase : s.phase = .runtime) : pledges = 0 ∧ line = [] := by
  cases h with
  | running phase none empty => exact ⟨none, empty⟩
  | choosing other | asked other | pledged other => exact nomatch hphase.symm.trans other
  | finished stop =>
    rcases stop with hover | hfatal
    · exact nomatch ht.symm.trans hover
    · exact nomatch hphase.symm.trans hfatal

/-- One message keeps the balance.  If it is an activation, a pledge has been kept with it. -/
theorem update {m : Message} (hs : s.Scoped)
    (h : Balance s (pledges + [m].countP Message.isActivation) line) :
    Balance (s.update m).1 pledges
      (line ++ Event.ordinary ((s.update m).2.flatten.filterMap Effect.event?)) := by
  -- what tells nothing leaves the line as it is
  have hquiet : ∀ {s' : Session} {es : List Effect}, (∀ e ∈ es, e.kind ≠ .told) → s'.phase = s.phase →
      s'.terminated = s.terminated →
      Balance s' pledges (line ++ Event.ordinary (es.filterMap Effect.event?)) := by
    intro s' es hes hphase hterminated
    rw [Event.ordinary_eq_nil_of_kind hes, List.append_nil]
    exact h.mono hphase hterminated (Nat.le_add_right _ _) (List.Sublist.refl _)
  have hround : ∀ r : Monitor, ∀ e ∈ r.round, e.kind ≠ .told := by
    intro r e he
    rw [Session.kind_of_mem_round he]
    decide
  cases ht : s.terminated with
  | true =>
    rw [Session.update_of_terminated ht, Command.flatten_none]
    exact hquiet (fun e he => absurd he List.not_mem_nil) rfl rfl
  | false =>
    have hchange := Session.update_change (hs.standing ht) ht m
    generalize (s.update m).1 = s', (s.update m).2.flatten = es at hchange
    -- an event that ends the session is not an ordinary one
    have hend : (line ++ []).length ≤ 2 := by
      rw [List.append_nil]
      exact h.length_le
    cases hchange with
    | shown kept silent =>
      exact hquiet (fun e he => by rw [silent e he]; decide) kept.phase kept.terminated
    | refreshed | switched => exact hquiet (hround _) rfl rfl
    | fetched => exact hquiet (fun e he => absurd he List.not_mem_nil) rfl rfl
    | picked mode mem phase =>
      obtain ⟨hnone, hline⟩ := h.of_configuring ht phase
      have hlonger := hline.append (List.Sublist.refl [Event.modeSelected mode])
      exact .asked (e := .modeSelected mode) rfl (by omega) rfl hlonger
    | @activated r a is phase =>
      subst is
      have htold : ∀ e ∈ a.waits (s.activationSeq + 1) ++ r.round, e.kind ≠ .told := by
        intro e he
        rcases List.mem_append.1 he with he | he
        · rw [Session.kind_of_mem_waits he]
          decide
        · exact hround r e he
      rw [Event.ordinary_eq_nil_of_kind htold, List.append_nil]
      have hkept : [Message.activate a].countP Message.isActivation = 1 := rfl
      rcases h.of_waiting ht phase with hnone | ⟨hone, hline⟩
      · omega
      · exact .running rfl (by omega) hline
    | disconnected phase =>
      obtain ⟨hnone, rfl⟩ := h.of_runtime ht phase
      exact .asked (e := .runtimeDisconnected) rfl (by omega) rfl (List.sublist_cons_self _ _)
    | reconfigured picker phase =>
      obtain ⟨hnone, rfl⟩ := h.of_runtime ht phase
      exact .choosing rfl (by omega) (List.Sublist.refl [Event.reconfigure])
    | broke | exited => exact .finished (Or.inl rfl) hend
    | fatalShown => exact .finished (Or.inr rfl) hend

end Balance

/-! ## Moves

Of the line, a part is still to be told and a part is in the buffer.  Most moves only carry events
from the one to the other, or lose some, and keep the balance for that reason (`line_of_kept`,
`line_of_performed`); the others have a lemma each. -/

namespace Core

variable {c c' : Core} {owed owed' : Nat} {buffer buffer' : List Event} {m : Move}

/-- The ordinary events in the buffer and those that are still to be told. -/
def line (c : Core) (buffer : List Event) : List Event :=
  Event.ordinary (buffer ++ c.effects.filterMap Effect.event?)

/-- Whether a loop is in balance, with the events that are owed an answer and those in the buffer. -/
def Balanced (c : Core) (owed : Nat) (buffer : List Event) : Prop :=
  Balance c.session (owed + c.queue.countP Message.isActivation) (c.line buffer)

/-- A move that tells something leaves less to be told. -/
theorem tells_append (e : Effect) (rest : List Effect) :
    Move.perform.tells (e :: rest) ++ rest.filterMap Effect.event? =
      (e :: rest).filterMap Effect.event? := by
  show [e].filterMap Effect.event? ++ _ = ([e] ++ rest).filterMap Effect.event?
  rw [List.filterMap_append]

/-- The line grows only when a message is handled: what a move tells is what is not to be told any more,
    and the buffer gets at most that. -/
theorem line_sublist (hbuffer : buffer'.Sublist (buffer ++ m.tells c.effects))
    (hleft : (m.tells c.effects ++ c'.effects.filterMap Effect.event?).Sublist
      (c.effects.filterMap Effect.event?)) : (c'.line buffer').Sublist (c.line buffer) := by
  have hall := hbuffer.append (List.Sublist.refl (c'.effects.filterMap Effect.event?))
  rw [List.append_assoc] at hall
  exact (hall.trans ((List.Sublist.refl buffer).append hleft)).filter _

/-- A move that tells nothing and carries nothing out leaves the line as long as it is, or the buffer has
    lost something. -/
theorem line_of_kept (hbuffer : buffer'.Sublist (buffer ++ m.tells c.effects))
    (hnone : m.tells c.effects = []) (heffects : c'.effects = c.effects) :
    (c'.line buffer').Sublist (c.line buffer) := by
  refine line_sublist hbuffer ?_
  rw [hnone, heffects]
  exact List.Sublist.refl _

/-- What is told on the way leaves the effects and enters the buffer, and so stays in the line. -/
theorem line_of_performed {e : Effect} {rest : List Effect}
    (hbuffer : buffer'.Sublist (buffer ++ Move.perform.tells c.effects)) (effects : c.effects = e :: rest)
    (heffects : c'.effects = rest) : (c'.line buffer').Sublist (c.line buffer) := by
  refine line_sublist hbuffer ?_
  rw [heffects, effects, tells_append]

/-- While nothing is to be carried out, the line is in the buffer. -/
theorem line_of_idle (effects : c.effects = []) (events : List Event) :
    c.line events = Event.ordinary events := by
  rw [line, effects]
  exact congrArg _ (List.append_nil events)

/-- The owner sends an activation, and so what it owed becomes a pledge on its way; any other message
    from outside pledges nothing. -/
theorem Balanced.received (h : c.Balanced owed buffer) (n : Message)
    (hline : (c.line buffer').Sublist (c.line buffer)) (howes : n.isActivation → 0 < owed) :
    Balanced { c with queue := c.queue ++ [n] } (owed - if n.isActivation then 1 else 0) buffer' := by
  refine h.mono rfl rfl ?_ hline
  rw [List.countP_append, List.countP_singleton]
  split
  · have := howes ‹_›
    omega
  · exact Nat.le_refl _

/-- The loop posts a message to itself, which is never an activation. -/
theorem Balanced.posted (h : c.Balanced owed buffer) {n : Message} (hn : n.isActivation = false)
    (hsession : c'.session = c.session) (hqueue : c'.queue = c.queue ++ [n])
    (hline : (c'.line buffer').Sublist (c.line buffer)) : c'.Balanced owed buffer' := by
  refine h.mono (by rw [hsession]) (by rw [hsession]) ?_ hline
  rw [hqueue, List.countP_append, List.countP_singleton, hn]
  exact Nat.le_refl _

/-- A message is handled.  If it is an activation, it was pledged, and what the session then tells
    comes to the end of the line. -/
theorem Balanced.handled (h : c.Balanced owed buffer) (hs : c.Staged) {n : Message}
    {rest : List Message} (queue : c.queue = n :: rest) (effects : c.effects = [])
    (hshorter : buffer'.Sublist buffer) :
    Balanced { c with
      session := (c.session.update n).1
      effects := (c.session.update n).2.flatten
      queue := rest } owed buffer' := by
  have hcount : owed + c.queue.countP Message.isActivation =
      owed + rest.countP Message.isActivation + [n].countP Message.isActivation := by
    rw [queue, List.countP_cons, List.countP_singleton]
    omega
  have hbefore : Balance c.session
      (owed + rest.countP Message.isActivation + [n].countP Message.isActivation)
      (Event.ordinary buffer) := by
    rw [← hcount, ← line_of_idle effects]
    exact h
  refine (hbefore.update hs.session).mono rfl rfl (Nat.le_refl _) ?_
  rw [line, Event.ordinary_append]
  exact (hshorter.filter _).append (List.Sublist.refl _)

/-- A frame cannot be written.  What is told of it is the end of the session, which does not count. -/
theorem Balanced.failed (h : c.Balanced owed buffer) (effects : c.effects = []) (cause : Text)
    (hbuffer : buffer'.Sublist (buffer ++ (Move.failPaint cause).tells c.effects)) :
    Balanced { c with session := { c.session with terminated := true }, quitting := true }
      owed buffer' := by
  have hshorter : (Event.ordinary buffer').Sublist (Event.ordinary buffer) := by
    have hall := hbuffer.filter (!·.isTerminal)
    rw [List.filter_append] at hall
    exact (List.append_nil (Event.ordinary buffer)) ▸ hall
  refine .finished (Or.inl rfl) ?_
  have hshort := h.length_le
  rw [line_of_idle effects] at hshort
  show (c.line buffer').length ≤ 2
  rw [line_of_idle effects]
  exact Nat.le_trans hshorter.length_le hshort

/-- **Every turn keeps the balance**, if the buffer gets at most what is told, and an activation comes
    from an owner who owes one. -/
theorem Balanced.turn (h : c.Balanced owed buffer) (hs : c.Staged) (ht : c.Turn m c')
    (hbuffer : buffer'.Sublist (buffer ++ m.tells c.effects)) (howes : m.isAnswer → 0 < owed) :
    c'.Balanced (owed - if m.isAnswer then 1 else 0) buffer' := by
  cases ht with
  | @aside m aside =>
    cases m with
    | place | stepWriter | takeEvent | signal | pass =>
      exact h.mono rfl rfl (Nat.le_refl _) (line_of_kept hbuffer rfl rfl)
    | perform | handle | failPaint | leave | close | finish | wake | lapse | post | receive | endScope
      | append | announce => cases aside
  | endedOutside | appended | announced | woke | lapsed | dropped | left | finished =>
    exact h.mono rfl rfl (Nat.le_refl _) (line_of_kept hbuffer rfl rfl)
  | @received n => exact h.received n (line_of_kept hbuffer rfl rfl) howes
  | handled queue stage effects =>
    exact h.handled hs queue effects ((List.append_nil buffer) ▸ hbuffer)
  | performed effects | began effects =>
    exact h.mono rfl rfl (Nat.le_refl _) (line_of_performed hbuffer effects rfl)
  | brokeDown effects =>
    -- a save tells nothing, and what was still to be told is given up
    refine h.mono rfl rfl (Nat.le_refl _) (line_sublist hbuffer ?_)
    rw [effects]
    exact List.nil_sublist _
  | asked effects stage asks =>
    have hanswer : ∀ {ring : LogRing} {e : Effect} {n : Message}, e.Asks ring n →
        n.isActivation = false := by
      intro ring e n hasks
      cases hasks with
      | logs | traffic => rfl
    exact h.posted (hanswer asks) rfl rfl (line_of_performed hbuffer effects rfl)
  | failed cause stage effects => exact h.failed effects cause hbuffer
  | closed =>
    refine h.mono rfl rfl ?_ (line_of_kept hbuffer rfl rfl)
    exact Nat.add_le_add_left (Nat.zero_le _) _
  | @posted i t =>
    have hother : t.awaited.message.isActivation = false := by
      cases t.awaited with
      | tick | logTick | logChange | contextEnd | ready | farewell => rfl
    exact h.posted hother rfl rfl (line_of_kept hbuffer rfl rfl)

/-- The owner takes an event, and owes an activation if it asks for one. -/
theorem Balanced.take {e : Event} (h : c.Balanced owed (e :: buffer)) :
    c.Balanced (owed + if e.wantsActivation then 1 else 0) buffer := by
  unfold Balanced at h ⊢
  rw [Nat.add_right_comm]
  cases he : e.isTerminal with
  | true =>
    have hline : c.line (e :: buffer) = c.line buffer := by simp [line, Event.ordinary, he]
    have hnone : e.wantsActivation = false := by
      cases e with
      | exit | error => rfl
      | modeSelected | reconfigure | runtimeDisconnected => exact nomatch he
    rw [hline] at h
    rw [hnone]
    exact h
  | false =>
    have hline : c.line (e :: buffer) = e :: c.line buffer := by simp [line, Event.ordinary, he]
    rw [hline] at h
    exact h.take

/-- Of the line, at most two events are in the buffer. -/
theorem Balanced.length_le (h : c.Balanced owed buffer) : (Event.ordinary buffer).length ≤ 2 := by
  have hline := Balance.length_le h
  rw [line, Event.ordinary_append, List.length_append] at hline
  omega

end Core

/-! ## Runs

The balance is about the present, and the rule of the owner about the past: requests that it has
taken, and activations that it has sent.  The account ties them together, and is kept by one more move
of a run whose owner keeps to the rule. -/

namespace Loop

variable {l l₀ l' : Loop} {ms : List Move} {m : Move}

/-- What it means that the owner takes an event. -/
theorem events_of_take (h : l.step .takeEvent = some l') :
    ∃ e, l.events.events = e :: l'.events.events ∧ l'.events.capacity = l.events.capacity ∧
      l'.core = l.core := by
  have hcore : l'.core = l.core := by
    have hturn := turn_of_step rfl h
    generalize l'.core = c' at hturn ⊢
    cases hturn with
    | aside => rfl
  have haside := aside_of_step h
  have hevents : l'.events = l'.margin.events := rfl
  rw [hevents, hcore]
  generalize l'.margin = g at haside
  cases haside with
  | took events => exact ⟨_, events, rfl, rfl⟩
  | kept still => exact nomatch still

/-- The owner apart, the buffer gets at most what is told. -/
theorem sublist_of_step (hm : m ≠ .takeEvent) (h : l.step m = some l') :
    l'.events.events.Sublist (l.events.events ++ m.tells l.effects) ∧
      l'.events.capacity = l.events.capacity := by
  rcases events_of_step hm h with ⟨hnone, hevents⟩ | ⟨e, hone, hevents⟩
  · rw [hnone, hevents, List.append_nil]
    exact ⟨List.Sublist.refl _, rfl⟩
  · rw [hone, hevents]
    exact ⟨l.events.sublist_push e, l.events.capacity_push e⟩

/-- What a run has come to whose owner keeps to the rule. -/
structure Account (l₀ : Loop) (ms : List Move) (l : Loop) : Prop where
  staged : l.core.Staged
  course : l.core.Course (l₀.told ms)
  capacity : l.events.capacity = l₀.events.capacity
  /-- The owner has taken the requests that it answered, and those that it still owes an answer. -/
  balance : ∃ owed, (l₀.received ms).countP Event.wantsActivation =
    ms.countP Move.isAnswer + owed ∧ l.core.Balanced owed l.events.events
  /-- What was told has been taken, or is in the buffer. -/
  lossless : 3 ≤ l₀.events.capacity → l₀.told ms = l₀.received ms ++ l.events.events

/-- In the beginning there is nothing to account for. -/
theorem account_start (config : Config) (prefs : Preferences) (logs : LogSource) (size : TerminalSize)
    (capacity : Nat) (store : PreferencesStore) (world : World) :
    Account (start (Session.make config prefs logs size) capacity store world) []
      (start (Session.make config prefs logs size) capacity store world) := by
  have hstaged := Core.staged_start config prefs logs size capacity store world
  have hcourse := Core.course_start config prefs logs size capacity store world
  refine ⟨hstaged, hcourse, rfl, ⟨0, rfl, ?_⟩, fun _ => rfl⟩
  show Balance _ 0 _
  rw [Core.core_start]
  rcases Session.begun_cases config prefs logs size with ⟨-, hphase, hopening⟩ | ⟨ht, -, e, hopening⟩
  · refine .choosing hphase rfl ?_
    rw [Core.line, hopening]
    exact List.nil_sublist _
  · refine .finished (Or.inl ht) ?_
    rw [Core.line, hopening]
    exact Nat.zero_le 2

/-- With room for three nothing is given up: what a move tells comes to the end of the buffer. -/
theorem Account.events_of_step (h : Account l₀ ms l) (hroom : 3 ≤ l₀.events.capacity) (hp : m.isProper)
    (hm : m ≠ .takeEvent) (hstep : l.step m = some l') :
    l'.events.events = l.events.events ++ m.tells l.effects := by
  rcases Loop.events_of_step hm hstep with ⟨hquiet, hevents⟩ | ⟨e, hone, hevents⟩
  · rw [hquiet, hevents, List.append_nil]
  · -- all that has been told so far is ordinary, and of that there are two at most
    obtain ⟨owed, -, hbalanced⟩ := h.balance
    have hordinary : ∀ x ∈ l.events.events, x.isTerminal = false := by
      intro x hx
      refine (h.course.ordinary_of_tells (turn_of_step hp hstep) hone).2 x ?_
      rw [h.lossless hroom]
      exact List.mem_append_right _ hx
    have hall : Event.ordinary l.events.events = l.events.events :=
      List.filter_eq_self.2 fun x hx => by rw [hordinary x hx]; rfl
    have hlength := hbalanced.length_le
    have hcapacity := h.capacity
    rw [hall] at hlength
    rw [hone, hevents, EventQueue.push, if_pos (by omega)]

/-- When the owner takes an event, it goes from the buffer to what was received, and may be a request
    that the owner owes an answer from now on. -/
theorem Account.take (h : Account l₀ ms l) (hr : l₀.run ms = some l)
    (hstep : l.step .takeEvent = some l') : Account l₀ (ms ++ [.takeEvent]) l' := by
  have hturn := turn_of_step rfl hstep
  obtain ⟨owed, hcount, hbalanced⟩ := h.balance
  obtain ⟨e, hevents, hcapacity, hcore⟩ := events_of_take hstep
  have htold : l₀.told (ms ++ [.takeEvent]) = l₀.told ms ++ [] := trace_snoc _ hr .takeEvent
  have hreceived : l₀.received (ms ++ [.takeEvent]) =
      l₀.received ms ++ l.events.events.head?.toList := trace_snoc _ hr .takeEvent
  rw [List.append_nil] at htold
  rw [hevents] at hbalanced hreceived
  have hone : l₀.received (ms ++ [.takeEvent]) = l₀.received ms ++ [e] := hreceived
  refine ⟨h.staged.turn hturn, ?_, hcapacity.trans h.capacity, ?_, fun hroom => ?_⟩
  · have hcourse := h.course.turn h.staged hturn
    have hnone : Move.takeEvent.tells l.core.effects = [] := rfl
    rw [hnone, List.append_nil] at hcourse
    rw [htold]
    exact hcourse
  · -- the event that is taken may want an activation, which the owner owes from then on
    refine ⟨_, ?_, hcore ▸ hbalanced.take⟩
    rw [hone, List.countP_append, List.countP_append, List.countP_singleton]
    have hnone : [Move.takeEvent].countP Move.isAnswer = 0 := rfl
    omega
  · rw [htold, hone, h.lossless hroom, hevents]
    simp

/-- What others do adds nothing to what was received, and an activation that is handed in is one that
    the owner owed. -/
theorem Account.beside (h : Account l₀ ms l) (hr : l₀.run ms = some l) (hp : m.isProper)
    (hm : m ≠ .takeEvent) (hstep : l.step m = some l')
    (howes : m.isAnswer → ms.countP Move.isAnswer <
      (l₀.received ms).countP Event.wantsActivation) : Account l₀ (ms ++ [m]) l' := by
  have hturn := turn_of_step hp hstep
  obtain ⟨owed, hcount, hbalanced⟩ := h.balance
  obtain ⟨hsublist, hcapacity⟩ := sublist_of_step hm hstep
  have htold : l₀.told (ms ++ [m]) = l₀.told ms ++ m.tells l.effects := trace_snoc _ hr m
  have hreceived : l₀.received (ms ++ [m]) = l₀.received ms := by
    have hlast : l₀.received (ms ++ [m]) =
        l₀.received ms ++ if m = .takeEvent then l.events.events.head?.toList else [] :=
      trace_snoc _ hr m
    rw [hlast, if_neg hm, List.append_nil]
  have howed : m.isAnswer → 0 < owed := by
    intro hanswer
    have := howes hanswer
    omega
  refine ⟨h.staged.turn hturn, htold ▸ h.course.turn h.staged hturn, hcapacity.trans h.capacity, ?_,
    fun hroom => ?_⟩
  · -- an activation that is sent is one less that the owner owes
    refine ⟨_, ?_, hbalanced.turn h.staged hturn hsublist howed⟩
    rw [hreceived, List.countP_append, List.countP_singleton]
    split
    · have := howed ‹_›
      omega
    · omega
  · -- what is told goes to the end of the buffer, since there is room
    rw [htold, hreceived, h.events_of_step hroom hp hm hstep, h.lossless hroom, List.append_assoc]

/-- Each move of such a run adds to the account. -/
theorem Account.snoc (h : Account l₀ ms l) (hr : l₀.run ms = some l) (hp : m.isProper)
    (hstep : l.step m = some l')
    (howes : m.isAnswer → ms.countP Move.isAnswer <
      (l₀.received ms).countP Event.wantsActivation) : Account l₀ (ms ++ [m]) l' := by
  by_cases hm : m = .takeEvent
  · subst hm
    exact h.take hr hstep
  · exact h.beside hr hp hm hstep howes

/-- A session that waits for an activation takes the one that comes. -/
theorem taken_of_waiting {s : Session} (ht : s.terminated = false) (hphase : s.phase = .waiting)
    (a : Activation) : (s.update (.activate a)).1.phase = .runtime ∧
      ∃ r, (s.update (.activate a)).1.monitor = some r ∧ r.seq = s.activationSeq + 1 ∧
        r.mode = a.mode := by
  have hupdate : s.update (.activate a) = s.activate a := by
    unfold Session.update
    rw [if_neg (by rw [ht]; decide)]
  rw [hupdate, Session.activate, if_neg (fun hne => hne hphase)]
  exact ⟨rfl, _, rfl, rfl, rfl⟩

/-- An activation that is handled finds a session that waits for it, or one that takes none any more. -/
theorem Account.taken (h : Account l₀ ms l) {a : Activation} {rest : List Message}
    (hqueue : l.queue = .activate a :: rest) (hstep : l.step .handle = some l') :
    l.session.terminated = true ∨ l.session.phase = .fatal ∨
      (l'.session.phase = .runtime ∧ ∃ r, l'.session.monitor = some r ∧
        r.seq = l.session.activationSeq + 1 ∧ r.mode = a.mode) := by
  obtain ⟨owed, -, hbalanced⟩ := h.balance
  -- the activation in the queue is one that was owed, so somebody has asked for it
  have hpledged : 0 < owed + l.queue.countP Message.isActivation := by
    have hone : (Message.activate a).isActivation = true := rfl
    rw [hqueue, List.countP_cons_of_pos hone]
    omega
  cases ht : l.session.terminated with
  | true => exact Or.inl rfl
  | false =>
    have hbalance : Balance l.session _ _ := hbalanced
    refine Or.inr ?_
    cases hphase : l.session.phase with
    | configuring =>
      obtain ⟨hnone, -⟩ := hbalance.of_configuring ht hphase
      exact absurd hnone (Nat.ne_of_gt hpledged)
    | runtime =>
      obtain ⟨hnone, -⟩ := hbalance.of_runtime ht hphase
      exact absurd hnone (Nat.ne_of_gt hpledged)
    | fatal => exact Or.inl rfl
    | waiting =>
      have hsession : l'.session = (l.session.update (.activate a)).1 := by
        have hturn := turn_of_step rfl hstep
        have hcore : l'.session = l'.core.session := rfl
        rw [hcore]
        generalize l'.core = c' at hturn
        cases hturn with
        | aside aside => exact nomatch aside
        | handled queue =>
          cases hqueue.symm.trans queue
          rfl
      rw [hsession]
      exact Or.inr (taken_of_waiting ht hphase a)

/-- **An owner who keeps to the rule loses no event**, whatever happens and however late it reads.  There
    are never more than two ordinary events in the buffer.  With room for three, as in the standard
    buffer, all that was told has been taken or is in the buffer.  And an activation that is handled is
    taken, as the next one and in its own mode, unless the session is over or shows a failure. -/
theorem nothing_lost_by_disciplined_owner (config : Config) (prefs : Preferences) (logs : LogSource)
    (size : TerminalSize) (capacity : Nat) (store : PreferencesStore) (world : World)
    {moves : List Move} {l : Loop} (hp : ∀ m ∈ moves, m.isProper)
    (hr : (start (Session.make config prefs logs size) capacity store world).run moves = some l)
    (hd : (start (Session.make config prefs logs size) capacity store world).Disciplined moves) :
    (Event.ordinary l.events.events).length ≤ 2 ∧
    (3 ≤ capacity →
      (start (Session.make config prefs logs size) capacity store world).told moves =
        (start (Session.make config prefs logs size) capacity store world).received moves ++
          l.events.events) ∧
    ∀ a rest l', l.queue = .activate a :: rest → l.step .handle = some l' →
      l.session.terminated = true ∨ l.session.phase = .fatal ∨
        (l'.session.phase = .runtime ∧ ∃ r, l'.session.monitor = some r ∧
          r.seq = l.session.activationSeq + 1 ∧ r.mode = a.mode) := by
  -- the account is kept over the history, of which each prefix keeps to the rule too
  have haccount := history_induction
    (P := fun ms l₁ =>
      (start (Session.make config prefs logs size) capacity store world).Disciplined ms →
        Account (start (Session.make config prefs logs size) capacity store world) ms l₁)
    (fun _ => account_start config prefs logs size capacity store world)
    (fun ms l₁ m l₂ hm hms h hstep hd => by
      obtain ⟨hbefore, howes⟩ := hd.of_snoc
      exact (h hbefore).snoc hms hm hstep howes) hp hr hd
  -- the three parts are read off it
  obtain ⟨owed, -, hbalanced⟩ := haccount.balance
  exact ⟨hbalanced.length_le, haccount.lossless, fun a rest l' => haccount.taken⟩

/-- Picks a mode, has its data plane started, stops it, and picks a mode again before the owner has read
    that the choice is open: two events are in the buffer. -/
def rush : List Move :=
  press .enter ++ [.perform, .takeEvent, .receive (.activate ⟨.tun, Token.never, none, 0⟩), .handle,
    .perform, .perform, .perform, .handle] ++ press .enter ++ press .right ++ press .enter ++ [.perform] ++
    press .enter ++ [.perform]

/-- The buffer gets as full as it can get. -/
theorem nothing_lost_in_rush :
    ∃ l, specimen.run rush = some l ∧ (Event.ordinary l.events.events).length = 2 ∧
      specimen.told rush = specimen.received rush ++ l.events.events := by
  have hp : ∀ m ∈ rush, m.isProper := by decide
  have hd : specimen.Disciplined rush := by decide +kernel
  have hfull : ((specimen.run rush).any fun l =>
      (Event.ordinary l.events.events).length = 2) = true := by decide +kernel
  obtain ⟨l, hr, hlength⟩ := (Option.any_eq_true _ _).1 hfull
  obtain ⟨-, hkept, -⟩ := nothing_lost_by_disciplined_owner _ _ _ _ _ _ _ hp hr hd
  exact ⟨l, hr, of_decide_eq_true hlength, hkept (by decide)⟩

end Loop
end TunnelBoard
