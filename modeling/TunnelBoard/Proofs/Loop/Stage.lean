import TunnelBoard.Proofs.Loop.Core
import TunnelBoard.Proofs.Session.Passage
/-
  The stages of a loop, and what has been stopped by then.

  A loop that does not run any more drops what its waits still post, and must not lose a timer that is
  wanted.  `Staged` says why it cannot: when a loop has stopped handling messages, either its session
  is over and the waits of the monitor have been ended, or the loop was brought down by a save from the
  settings screen, where no timer is wanted.

  There is one gap, and `Staged` names it: after a frame could not be written the session is over, but
  its waits are ended only when the loop leaves.
-/

namespace TunnelBoard
namespace Core

structure Staged (c : Core) : Prop where
  session : c.session.Scoped
  /-- A loop ends because its session is over. -/
  quits : c.quitting = true ∨ .quit ∈ c.effects → c.session.terminated = true
  /-- When the session is over, so are its waits, unless the loop is about to leave. -/
  stopped : c.session.terminated = true →
    (c.stage = .running ∧ c.quitting = true) ∨
      ∀ r, c.session.monitor = some r → r.isStopped = true
  /-- When the loop handles no messages any more, no timer is wanted. -/
  still : c.stage ≠ .running → c.effects = [] ∧
    ∀ r, c.session.monitor = some r → r.isStopped = true ∨ r.screen = .settings
  /-- Preferences are saved while the settings screen shows. -/
  saving : ∀ p, .savePreferences p ∈ c.effects →
    c.session.terminated = false ∧ ∃ r, c.session.monitor = some r ∧ r.screen = .settings

variable {c : Core}

/-- Carrying out an effect leaves less to be carried out. -/
theorem Staged.next (h : c.Staged) (hstage : c.stage = .running) {e : Effect}
    {rest : List Effect} (he : c.effects = e :: rest) : Staged { c with effects := rest } := by
  have hmem : ∀ x ∈ rest, x ∈ c.effects := fun x hx => he ▸ List.mem_cons_of_mem _ hx
  refine ⟨h.session, fun hq => ?_, h.stopped, fun hs => absurd hstage hs, fun p hp =>
    h.saving p (hmem _ hp)⟩
  rcases hq with hq | hq
  · exact h.quits (Or.inl hq)
  · exact h.quits (Or.inr (hmem _ hq))

/-- A loop may be told to end when its session is over. -/
theorem Staged.quit (h : c.Staged) (hover : c.session.terminated = true) (quitting : Bool)
    (hq : c.quitting = true → quitting = true) : Staged { c with quitting } := by
  refine ⟨h.session, fun _ => hover, fun ht => ?_, h.still, h.saving⟩
  rcases h.stopped ht with ⟨hstage, hquitting⟩ | hall
  · exact Or.inl ⟨hstage, hq hquitting⟩
  · exact Or.inr hall

/-- Messages, waits and what is outside do not matter to the order. -/
theorem Staged.beside (h : c.Staged) (queue : List Message) (waits : List Wait)
    (outside : List Nat) (ring : LogRing) (unannounced : Nat) :
    Staged { c with queue, waits, outside, ring, unannounced } :=
  ⟨h.session, h.quits, h.stopped, h.still, h.saving⟩

/-- Handling a message keeps the order. -/
theorem Staged.handled (h : c.Staged) {m : Message} {rest : List Message}
    (hstage : c.stage = .running) (hquitting : c.quitting = false) :
    Staged { c with
      session := (c.session.update m).1
      effects := (c.session.update m).2.flatten
      queue := rest } := by
  have hrunning : ¬ c.stage ≠ .running := fun hs => hs hstage
  have hgoing : ¬ c.quitting = true := by rw [hquitting]; decide
  cases ht : c.session.terminated with
  | true =>
    -- a session that is over takes no notice of the message
    rw [Session.update_of_terminated ht, Command.flatten_none]
    refine ⟨h.session, fun _ => ht, h.stopped, fun hs => absurd hs hrunning, fun p hp =>
      absurd hp List.not_mem_nil⟩
  | false =>
    have hchange := Session.update_change (h.session.standing ht) ht m
    refine ⟨h.session.update m, fun hq => ?_, fun ht' => ?_, fun hs => absurd hs hrunning,
      fun p hp => Session.settings_of_mem_save hchange ht hp⟩
    · rcases hq with hq | hq
      · exact absurd hq hgoing
      · exact Session.terminated_of_mem_quit hchange hq
    · exact Or.inr fun r hr => Session.isStopped_of_change hchange ht ht' hr

/-- A loop that does not run goes on to its end. -/
theorem Staged.onward (h : c.Staged) (hs : c.stage ≠ .running) (stage : Stage)
    (queue : List Message) : Staged { c with stage, queue } := by
  have hstill := h.still hs
  refine ⟨h.session, h.quits, fun ht => ?_, fun _ => hstill, h.saving⟩
  rcases h.stopped ht with ⟨hrunning, -⟩ | hall
  · exact absurd hrunning hs
  · exact Or.inr hall

/-- Every turn keeps the order. -/
theorem Staged.turn {m : Move} {c' : Core} (h : c.Staged) (ht : c.Turn m c') : c'.Staged := by
  cases ht with
  | aside => exact h
  | endedOutside | appended | announced | received | woke | lapsed | posted | dropped =>
    exact h.beside _ _ _ _ _
  | handled queue stage effects quitting => exact h.handled stage quitting
  | @performed e rest effects stage plain =>
    have hnext := h.next stage effects
    -- only the end of the loop changes more than the list of the effects
    by_cases he : e = .quit
    · have hover := h.quits (Or.inr (effects ▸ he ▸ List.mem_cons_self))
      exact hnext.quit hover _ fun hq => by simp [he]
    · have hsame : (c.quitting || decide (e = .quit)) = c.quitting := by simp [he]
      rw [hsame]
      exact hnext
  | brokeDown effects stage =>
    obtain ⟨hlive, r, hr, hscreen⟩ := h.saving _ (effects ▸ List.mem_cons_self)
    refine ⟨h.session, fun hq => ?_, fun ht => ?_, fun _ => ⟨rfl, fun q hq => ?_⟩, fun p hp =>
      absurd hp List.not_mem_nil⟩
    · rcases hq with hq | hq
      · exact h.quits (Or.inl hq)
      · exact absurd hq List.not_mem_nil
    · exact nomatch hlive.symm.trans ht
    · cases hr.symm.trans hq
      exact Or.inr hscreen
  | began effects stage | asked effects stage =>
    exact (h.next stage effects).beside _ _ _ _ _
  | failed cause stage effects =>
    refine ⟨Session.scoped_terminated h.session, fun _ => rfl, fun _ => Or.inl ⟨stage, rfl⟩,
      fun hs => absurd stage hs, fun p hp => ?_⟩
    rw [effects] at hp
    exact absurd hp List.not_mem_nil
  | left stage effects quitting =>
    have hover := h.quits (Or.inl quitting)
    have hall : ∀ r, c.session.monitor.map Monitor.stopWaits = some r → r.isStopped = true := by
      intro r hr
      obtain ⟨q, -, rfl⟩ := Option.map_eq_some_iff.1 hr
      exact Monitor.isStopped_stopWaits q
    refine ⟨Session.scoped_stopWaits h.session hover rfl rfl rfl, fun _ => hover,
      fun _ => Or.inr hall, fun _ => ⟨effects, fun r hr => Or.inl (hall r hr)⟩, fun p hp => ?_⟩
    rw [effects] at hp
    exact absurd hp List.not_mem_nil
  | closed stage => exact h.onward (by rw [stage]; decide) _ _
  | finished stage => exact h.onward (by rw [stage]; decide) _ _

end Core
end TunnelBoard
