import TunnelBoard.Live.Owner
import TunnelBoard.Proofs.Loop.Trace
/-
  A live session is a run of its loop.

  The theory of the loop is about runs: any moves, one after the other, each of them possible where it is
  made.  A live session does not leave the choice open.  It handles messages in batches, carries out all
  their effects, paints, lets the writer come to rest, wakes what is ready, and lets time pass only when
  there is nothing else to do.  Here this schedule is shown to be one of the runs: whatever a session does
  to its loop, there are moves that lead from the loop before to the loop after (`Loop.Leads`), and for
  each operation it is said which moves they can be.  What holds of every run therefore holds of the
  program that is run, and nothing that is known of loops has to be proved again for the schedule.

  None of this depends on what the moves do.  A session touches its loop in one way only, by attempting a
  move, and an attempt is one move or none at all (`Leads.attempt`).  The rest is putting together: runs
  follow one another (`Leads.trans`), and the rounds of the schedule, which are as many as there are
  effects, messages or waits when they begin, are folds (`Leads.foldl`).  How many rounds there are
  matters to what the schedule gets done, not to its being a run.
-/

namespace TunnelBoard

/-- A move that a session makes by itself, with nothing handed in and no time passing. -/
def Move.isInner : Move → Bool
  | place | perform | handle | failPaint _ | leave | close | finish | wake _ | post _
  | stepWriter => true
  | lapse _ | receive _ | takeEvent | endScope _ | signal _ | append _ | announce | pass _ => false

/-- A move that a session makes by itself when it has to wait: time passes as well. -/
def Move.isPatient : Move → Bool
  | pass _ => true
  | m => m.isInner

/-- What a session does without waiting it may also do while it waits. -/
theorem Move.isPatient_of_isInner {m : Move} (h : m.isInner) : m.isPatient := by
  cases m with
  | pass => rfl
  | place | perform | handle | failPaint | leave | close | finish | wake | post | stepWriter => rfl
  | lapse | receive | takeEvent | endScope | signal | append | announce => cases h

/-- A move that is made while a script is played: the session's own, those of the scenes, and the word
    that closes the session at the end. -/
def Move.IsPlayed (scenes : List (List Move)) (m : Move) : Prop :=
  m.isPatient ∨ (∃ scene ∈ scenes, m ∈ scene) ∨ m = .receive .close

/-- A session hands itself nothing, so what it does by itself is proper, and it leaves the events to its
    owner. -/
theorem Move.isProper_of_isPatient {m : Move} (h : m.isPatient) : m.isProper ∧ m ≠ .takeEvent := by
  cases m with
  | pass => exact ⟨rfl, Move.noConfusion⟩
  | place | perform | handle | failPaint | leave | close | finish | wake | post | stepWriter =>
    exact ⟨rfl, Move.noConfusion⟩
  -- these come from outside
  | lapse | receive | takeEvent | endScope | signal | append | announce => cases h

namespace Loop

variable {p q : Move → Prop} {l l₁ l₂ : Loop}

/-- Whether moves of a kind lead from one state of a loop to another, made one after the other. -/
def Leads (p : Move → Prop) (l l' : Loop) : Prop :=
  ∃ moves, (∀ m ∈ moves, p m) ∧ l.run moves = some l'

/-- No move at all leads nowhere else. -/
theorem Leads.refl : l.Leads p l := ⟨[], fun _ h => absurd h List.not_mem_nil, rfl⟩

/-- One run goes on where another one ends. -/
theorem Leads.trans (h : l.Leads p l₁) (h' : l₁.Leads p l₂) : l.Leads p l₂ := by
  obtain ⟨ms, hms, hrun⟩ := h
  obtain ⟨ns, hns, hrun'⟩ := h'
  refine ⟨ms ++ ns, fun m hm => (List.mem_append.1 hm).elim (hms m) (hns m), ?_⟩
  rw [run_append, hrun]
  exact hrun'

/-- A run of some kind is one of every wider kind. -/
theorem Leads.mono (h : l.Leads p l₁) (hpq : ∀ m, p m → q m) : l.Leads q l₁ := by
  obtain ⟨ms, hms, hrun⟩ := h
  exact ⟨ms, fun m hm => hpq m (hms m hm), hrun⟩

/-- One move is a run. -/
theorem Leads.of_step {m : Move} (hm : p m) (h : l.step m = some l₁) : l.Leads p l₁ :=
  ⟨[m], fun n hn => List.mem_singleton.1 hn ▸ hm, by rw [run, h]; rfl⟩

/-- To attempt a move is to make it, or to do nothing if it cannot be made. -/
theorem Leads.attempt {m : Move} (hm : p m) : l.Leads p (l.attempt m) := by
  unfold Loop.attempt
  cases h : l.step m with
  | none => exact .refl
  | some l' => exact .of_step hm h

/-- To repeat a move is to make it some number of times. -/
theorem Leads.repeated {m : Move} (hm : p m) (n : Nat) : l.Leads p (repeated m n l) := by
  induction n generalizing l with
  | zero => exact .refl
  | succ n ih =>
    unfold Loop.repeated
    split
    · exact (Leads.of_step hm ‹_›).trans ih
    · exact .refl

/-- Rounds that are runs make up a run.  What is gone through only says how many there are, and the loop
    may be part of a larger state. -/
theorem Leads.foldl {σ α : Type} (loop : σ → Loop) (f : σ → α → σ)
    (hf : ∀ s a, (loop s).Leads p (loop (f s a))) (as : List α) (s : σ) :
    (loop s).Leads p (loop (as.foldl f s)) := by
  induction as generalizing s with
  | nil => exact .refl
  | cons a as ih => exact (hf s a).trans (ih (f s a))

/-! ## Batches -/

/-- An effect is placed and carried out. -/
theorem leads_performOne (l : Loop) : l.Leads (·.isInner) l.performOne := by
  have hplaced : l.Leads (·.isInner) (l.attempt .place) := .attempt rfl
  exact hplaced.trans (.attempt rfl)

/-- All effects are carried out. -/
theorem leads_performAll (l : Loop) : l.Leads (·.isInner) l.performAll :=
  .foldl id _ (fun l _ => l.leads_performOne) l.effects l

/-- A message is handled, and then all that it asks for is carried out. -/
theorem leads_handleOne (l : Loop) : l.Leads (·.isInner) l.handleOne := by
  have hhandled : l.Leads (·.isInner) (l.attempt .handle) := .attempt rfl
  exact hhandled.trans (leads_performAll _)

/-- All messages that are in the queue are handled. -/
theorem leads_handleAll (l : Loop) : l.Leads (·.isInner) l.handleAll :=
  .foldl id _ (fun l _ => l.leads_handleOne) l.queue l

/-- A batch is gone through twice, since carrying out effects may put messages in the queue. -/
theorem leads_handleBatch (l : Loop) : l.Leads (·.isInner) l.handleBatch :=
  l.leads_handleAll.trans (leads_handleAll _)

/-- The writer is moved on until it rests. -/
theorem leads_settleWriter (l : Loop) : l.Leads (·.isInner) l.settleWriter :=
  Leads.repeated (p := (·.isInner)) rfl PreferencesWriter.stepsToRest

/-- A loop that has quit carries out what is left, is left, closes its queue, lets the writer settle
    and finishes. -/
theorem leads_wrapUp (l : Loop) : l.Leads (·.isInner) l.wrapUp := by
  unfold wrapUp
  split
  · -- in the order of the program: effects, leaving, closing, writer, end
    have hleft : l.Leads (·.isInner) (l.performAll.attempt .leave) :=
      l.leads_performAll.trans (.attempt rfl)
    have hclosed : l.Leads (·.isInner) ((l.performAll.attempt .leave).attempt .close) :=
      hleft.trans (.attempt rfl)
    exact (hclosed.trans (leads_settleWriter _)).trans (.attempt rfl)
  · exact .refl

end Loop

namespace LiveSession

open Loop (Leads)

/-! ## Rounds -/

/-- A frame that is painted is no concern of the loop, unless it cannot be written. -/
theorem leads_paint (s : LiveSession) : s.loop.Leads (·.isInner) s.paint.loop := by
  unfold paint
  split
  · exact .refl
  · dsimp only
    split
    · exact .refl
    · exact .attempt rfl

/-- At the end of a round the screen is painted, the writer settles, and a session that has quit is
    wrapped up. -/
theorem leads_finishRound (s : LiveSession) : s.loop.Leads (·.isInner) s.finishRound.loop :=
  (s.leads_paint.trans (Loop.leads_settleWriter _)).trans (Loop.leads_wrapUp _)

/-- **How a session begins**: by moves of its own. -/
theorem leads_begin (s : LiveSession) : s.loop.Leads (·.isInner) s.begin.loop :=
  s.loop.leads_performAll.trans (leads_finishRound (s.onLoop Loop.performAll))

/-- **A round**, in which what is in the queue is handled, is made of the session's own moves. -/
theorem leads_round (s : LiveSession) : s.loop.Leads (·.isInner) s.round.loop := by
  unfold round
  split
  · exact .refl
  · exact s.loop.leads_handleBatch.trans (leads_finishRound (s.onLoop Loop.handleBatch))

/-! ## Waits -/

/-- A wait that is ready is woken and posts what it has to say. -/
theorem leads_fire (s : LiveSession) (i : Nat) : s.loop.Leads (·.isInner) (s.fire i).loop := by
  have hwoken : s.loop.Leads (·.isInner) (s.loop.attempt (.wake i)) := .attempt rfl
  exact hwoken.trans (.attempt rfl)

/-- All waits that are ready are fired, once each. -/
theorem leads_fireReady (s : LiveSession) : s.loop.Leads (·.isInner) s.fireReady.loop := by
  refine Leads.foldl LiveSession.loop _ (fun s _ => ?_) s.loop.waits s
  split
  · exact s.leads_fire _
  · exact .refl

/-- **A session that goes on for as long as it can without time passing** makes moves of its own. -/
theorem leads_settle (s : LiveSession) : s.loop.Leads (·.isInner) s.settle.loop := by
  refine s.leads_round.trans (Leads.foldl LiveSession.loop _ (fun s _ => ?_) s.round.loop.waits s.round)
  split
  · exact (s.leads_fire _).trans (leads_round _)
  · exact .refl

/-- Time passes to the moment of the next timer, which is then fired. -/
theorem leads_passTime (s : LiveSession) : s.loop.Leads (·.isPatient) s.passTime.loop := by
  unfold passTime
  split
  · rename_i due i _
    have hpassed : s.loop.Leads (·.isPatient) (s.loop.attempt (.pass (due - s.loop.world.clock))) :=
      .attempt rfl
    refine hpassed.trans (Leads.mono ?_ fun _ => Move.isPatient_of_isInner)
    exact leads_fire (s.onLoop (·.attempt (.pass (due - s.loop.world.clock)))) i
  · exact .refl

/-- To wait for a message is to do nothing if there is one, else to fire what is ready, or to let time
    pass. -/
theorem leads_awaitMessage (s : LiveSession) : s.loop.Leads (·.isPatient) s.awaitMessage.loop := by
  unfold awaitMessage
  split
  · exact .refl
  · split
    · exact (s.leads_fire _).mono fun _ => Move.isPatient_of_isInner
    · exact s.leads_passTime

/-- **A session that is waited for** lets time pass, and else makes moves of its own. -/
theorem leads_waitLonger (s : LiveSession) : s.loop.Leads (·.isPatient) s.waitLonger.loop :=
  s.leads_passTime.trans ((leads_settle _).mono fun _ => Move.isPatient_of_isInner)

/-! ## What comes from outside -/

/-- Of the moves that are to be made from outside, those are made that can be made. -/
theorem leads_make (s : LiveSession) (moves : List Move) :
    s.loop.Leads (· ∈ moves) (s.make moves).loop := by
  have hall : ∀ (rest : List Move) (l : Loop), (∀ m ∈ rest, m ∈ moves) →
      l.Leads (· ∈ moves) (rest.foldl Loop.attempt l) := by
    -- the moves that are left are among those that were asked for
    intro rest
    induction rest with
    | nil => exact fun l _ => .refl
    | cons m rest ih =>
      intro l hrest
      exact (Leads.attempt (hrest m List.mem_cons_self)).trans
        (ih _ fun n hn => hrest n (List.mem_cons_of_mem m hn))
  exact hall moves s.loop fun _ hm => hm

/-- **An owner who acts** has the moves made that it asks for, and then the session goes on by itself. -/
theorem leads_act (s : LiveSession) (moves : List Move) :
    s.loop.Leads (fun m => m.isInner ∨ m ∈ moves) (s.act moves).loop :=
  ((s.leads_make moves).mono fun _ => Or.inr).trans ((leads_settle _).mono fun _ => Or.inl)

/-- **A script that is played** is a run of its scenes and of what the session does by itself. -/
theorem leads_play (scenes : List (List Move)) (s : LiveSession) :
    s.loop.Leads (Move.IsPlayed scenes) (play scenes s).loop := by
  -- what the session does by itself, in front of a scene and after it, is allowed throughout
  have hinner : ∀ {l l' : Loop} {scenes : List (List Move)}, l.Leads (·.isInner) l' →
      l.Leads (Move.IsPlayed scenes) l' :=
    fun h => h.mono fun _ hm => Or.inl (Move.isPatient_of_isInner hm)
  induction scenes generalizing s with
  | nil =>
    have hclosed : s.fireReady.loop.Leads (Move.IsPlayed [])
        (s.fireReady.make [.receive .close]).loop :=
      (s.fireReady.leads_make _).mono fun _ hm => Or.inr (Or.inr (List.mem_singleton.1 hm))
    exact ((hinner s.leads_fireReady).trans hclosed).trans (hinner (leads_round _))
  | cons scene rest ih =>
    unfold play
    split
    · have hmade : s.fireReady.loop.Leads (Move.IsPlayed (scene :: rest))
          (s.fireReady.make scene).loop :=
        (s.fireReady.leads_make scene).mono fun _ hm =>
          Or.inr (Or.inl ⟨scene, List.mem_cons_self, hm⟩)
      have hready := (hinner s.leads_fireReady).trans hmade
      have hwaited := hready.trans ((leads_awaitMessage _).mono fun _ => Or.inl)
      refine (hwaited.trans (hinner (leads_round _))).trans ((ih _).mono fun m hm => ?_)
      refine hm.imp_right fun hm => hm.imp_left ?_
      rintro ⟨other, hother, hm⟩
      exact ⟨other, List.mem_cons_of_mem scene hother, hm⟩
    · exact .refl

/-- A message that is handed in is received. -/
theorem step_of_handIn {s s' : LiveSession} {m : Message} (h : s.handIn m = .ok s') :
    s.loop.step (.receive m) = some s'.loop := by
  unfold handIn at h
  split at h
  · cases h
    assumption
  · cases h

end LiveSession
end TunnelBoard
