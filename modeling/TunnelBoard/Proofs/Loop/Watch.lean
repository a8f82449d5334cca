import TunnelBoard.Proofs.Loop.Pace
import TunnelBoard.Proofs.Session.Visit
/-
  The waits for lines of a log that tells of new ones.

  What has ended stays so, in a loop as in a session (`hasEnded_turn`).  That makes the waits of
  earlier visits to the logs harmless but for one thing: their tokens are cancelled, so they are to
  lapse, yet nothing keeps them from waking first.  `Observed` says which waits there are: whatever
  waits for lines watches the log, and either its number is current or its token is cancelled.

  When is the token of a wait cancelled?  There is a number for each visit, and a wait is for the
  visit with its number.  A message that brings a visit to its end ends the scope of that visit too
  (`Session.visit_of_change`), and this is where a wait goes from the first kind to the second.  A
  session that is left ends the scope of its activation, and so all waits at once.
-/

namespace TunnelBoard
namespace Core

variable {c c' : Core} {n : Nat}

/-! ## What has ended -/

/-- What has ended stays so. -/
theorem hasEnded_turn (h : c.Staged) {m : Move} (ht : c.Turn m c') {x : Scope}
    (hx : c.hasEnded x = true) : c'.hasEnded x = true := by
  cases ht with
  | aside | appended | announced | received | performed | began | asked | failed | woke | lapsed
    | posted | dropped => exact hx
  | endedOutside id =>
    cases x with
    | outside i =>
      have hbefore : i ∈ c.outside := List.contains_iff_mem.1 hx
      exact List.contains_iff_mem.2 (List.mem_append_left _ hbefore)
    | session | activation | logVisit => exact hx
  | handled =>
    cases x with
    | session | outside => exact hx
    | activation | logVisit => exact Session.hasEnded_update h.session _ hx
  -- here the loop ends a scope of its own
  | brokeDown | closed | finished =>
    cases x with
    | session => rfl
    | outside | activation | logVisit => exact hx
  | left =>
    -- scopes that are ended with the waits come on top of those that had ended
    have hmonitor : ∀ {x}, c.session.hasEnded x = true →
        ({ c.session with monitor := c.session.monitor.map Monitor.stopWaits } : Session).hasEnded x =
          true := by
      intro x hx
      rcases Session.hasEnded_iff.1 hx with hx | ⟨r, hr, hx⟩
      · exact Session.hasEnded_iff.2 (Or.inl hx)
      · refine Session.hasEnded_iff.2 (Or.inr ⟨r.stopWaits, ?_, Monitor.mem_ended_stopWaits hx⟩)
        rw [hr]
        rfl
    cases x with
    | session => rfl
    | outside => exact hx
    | activation | logVisit => exact hmonitor hx

/-- The loop and the owner have no part in the tokens of the chains. -/
theorem cancelled_stop (c : Core) (ch : Chain) (k : Link) :
    (ch.stop k).cancelled c.hasEnded = (ch.stop k).cancelled c.session.hasEnded := by
  cases ch with
  | ticks | logs => rfl

/-! ## Waits for lines

What a visit asks for carries its number, and what carries another number belongs to a visit that is
over, so its token is cancelled. -/

/-- What waits for lines of a log that tells of new ones, and what asks for its newest `n`. -/
structure Observed (n : Nat) (c : Core) : Prop where
  logs : c.session.logs = ⟨.ring, true⟩
  limit : c.session.settings.logTailLines = n
  requests : ∀ e ∈ c.effects, ∀ k, Chain.logs.ofRequest? e = some k →
    ∃ r, c.session.monitor = some r ∧ e = .fetchLogs r.seq r.logSeq .ring n
  watches : ∀ e ∈ c.effects, ∀ k, Chain.logs.ofEffect? e = some k →
    ∃ r stop, c.session.monitor = some r ∧ e = .watchLog r.seq r.logSeq stop
  waits : ∀ t ∈ c.waits, ∀ k, Chain.logs.ofMessage? t.awaited.message = some k →
    t.awaited.isLogChange = true
  /-- Waits of earlier visits have been told to stop. -/
  ended : ∀ t ∈ c.waits, ∀ k, Chain.logs.ofMessage? t.awaited.message = some k →
    (∃ r, c.session.monitor = some r ∧ k = Chain.logs.link r) ∨
      (Chain.logs.stop k).cancelled c.hasEnded = true

/-- Effects and waits may be given up, and scopes may end. -/
theorem Observed.of_monitor (h : c.Observed n) (hm : c'.session.monitor = c.session.monitor)
    (hlogs : c'.session.logs = c.session.logs) (hsettings : c'.session.settings = c.session.settings)
    (he : ∀ e ∈ c'.effects, e ∈ c.effects)
    (hw : ∀ t ∈ c'.waits, ∃ t₀ ∈ c.waits, t₀.awaited = t.awaited)
    (hended : ∀ x, c.hasEnded x = true → c'.hasEnded x = true) : c'.Observed n := by
  refine ⟨hlogs.trans h.logs, hsettings ▸ h.limit, fun e hmem => ?_, fun e hmem => ?_,
    fun t ht k hk => ?_, fun t ht k hk => ?_⟩
  · rw [hm]
    exact h.requests e (he e hmem)
  · rw [hm]
    exact h.watches e (he e hmem)
  · obtain ⟨t₀, ht₀, hsame⟩ := hw t ht
    rw [← hsame] at hk ⊢
    exact h.waits t₀ ht₀ k hk
  · obtain ⟨t₀, ht₀, hsame⟩ := hw t ht
    rw [← hsame] at hk
    rw [hm]
    exact (h.ended t₀ ht₀ k hk).imp_right (Token.cancelled_mono hended _)

/-- A wait begins with the current number. -/
theorem Observed.began (h : c.Observed n) {e : Effect} {rest : List Effect} {awaited : Awaited}
    {stop : StopToken} (he : c.effects = e :: rest) (hb : e.Begins awaited stop) :
    Observed n { c with
      effects := rest
      waits := c.waits ++ [Wait.make awaited (stop.merge (Token.ofScope .session))] } := by
  have hmem : ∀ x ∈ rest, x ∈ c.effects := fun x hx => he ▸ List.mem_cons_of_mem _ hx
  -- what begins was asked for by the monitor that is up
  have hnew : ∀ k, Chain.logs.ofMessage? awaited.message = some k →
      ∃ r stop, c.session.monitor = some r ∧ e = .watchLog r.seq r.logSeq stop := by
    intro k hk
    rw [(ofMessage?_of_begins .logs hb).1] at hk
    exact h.watches e (he ▸ List.mem_cons_self) k hk
  refine ⟨h.logs, h.limit, fun x hx => h.requests x (hmem x hx), fun x hx => h.watches x (hmem x hx),
    fun t ht k hk => ?_, fun t ht k hk => ?_⟩
  · rcases List.mem_append.1 ht with ht | ht
    · exact h.waits t ht k hk
    · rw [List.mem_singleton.1 ht] at hk ⊢
      obtain ⟨r, _, -, rfl⟩ := hnew k hk
      cases hb
      rfl
  · rcases List.mem_append.1 ht with ht | ht
    · exact h.ended t ht k hk
    · rw [List.mem_singleton.1 ht] at hk
      obtain ⟨r, _, hr, rfl⟩ := hnew k hk
      cases hb
      exact Or.inl ⟨r, hr, (Option.some.inj hk).symm⟩

/-- Handling a message ends the waits of a visit that it brings to its end. -/
theorem Observed.handled (h : c.Observed n) (ho : c.Staged) (hp : c.Paced .logs) {m : Message}
    {rest : List Message}
    (hmono : ∀ x, c.hasEnded x = true →
      hasEnded { c with
        session := (c.session.update m).1
        effects := (c.session.update m).2.flatten
        queue := rest } x = true) :
    Observed n { c with
      session := (c.session.update m).1
      effects := (c.session.update m).2.flatten
      queue := rest } := by
  cases ht : c.session.terminated with
  -- a session that is over leaves the waits as they are
  | true =>
    rw [Session.update_of_terminated ht, Command.flatten_none] at hmono ⊢
    exact h.of_monitor rfl rfl rfl (fun e he => absurd he List.not_mem_nil)
      (fun t ht => ⟨t, ht, rfl⟩) hmono
  | false =>
    have hchange := Session.update_change (ho.session.standing ht) ht m
    obtain ⟨-, hlogs, hsettings⟩ := hchange.constants
    have hobservable : c.session.logs.observable = true := by rw [h.logs]
    refine ⟨hlogs.trans h.logs, hsettings ▸ h.limit, fun e he k hk => ?_,
      fun e he k hk => Session.watchLog_of_mem_update ho.session ht hobservable he hk, h.waits,
      fun t hmem k hk => ?_⟩
    · obtain ⟨r, hr, hfetch⟩ := Session.fetchLogs_of_mem_update ho.session ht he hk
      rw [h.logs, h.limit] at hfetch
      exact ⟨r, hr, hfetch⟩
    · rcases h.ended t hmem k hk with ⟨r, hr, rfl⟩ | hcancelled
      · -- the number is on the way, so the visit was going on until this message
        have hlink : Chain.logs.link r ∈ c.links .logs := by
          simp only [links, List.mem_append]
          exact Or.inl (Or.inr (List.mem_filterMap.2 ⟨t, hmem, hk⟩))
        -- were the chain not wanted, none of its numbers would be on the way
        have hwants : Chain.logs.Wants r := by
          by_contra hwants
          have hnone := hp.one r hr
          rw [if_neg hwants, List.count_eq_zero] at hnone
          exact hnone hlink
        rcases Session.visit_of_change ho.session ht hchange hr hwants.1 with ⟨r', hr', hsame⟩ | hover
        · exact Or.inl ⟨r', hr', hsame.symm⟩
        · rw [cancelled_stop]
          exact Or.inr hover
      · exact Or.inr (Token.cancelled_mono hmono _ hcancelled)

/-- When all waits are ended, those for lines are. -/
theorem Observed.left (h : c.Observed n) (heffects : c.effects = [])
    (hmono : ∀ x, c.hasEnded x = true →
      hasEnded { c with
        stage := .ending
        session := { c.session with monitor := c.session.monitor.map Monitor.stopWaits } } x = true) :
    Observed n { c with
      stage := .ending
      session := { c.session with monitor := c.session.monitor.map Monitor.stopWaits } } := by
  have hnone : ∀ e, e ∉ c.effects := by
    intro e he
    rw [heffects] at he
    exact absurd he List.not_mem_nil
  refine ⟨h.logs, h.limit, fun e he => absurd he (hnone e), fun e he => absurd he (hnone e), h.waits,
    fun t ht k hk => Or.inr ?_⟩
  rcases h.ended t ht k hk with ⟨r, hr, rfl⟩ | hcancelled
  · -- the visit of the monitor that is up ends with the scope of its activation
    have hended : (Session.hasEnded { c.session with
        monitor := c.session.monitor.map Monitor.stopWaits } (.activation r.seq)) = true := by
      refine Session.hasEnded_iff.2 (Or.inr ⟨r.stopWaits, ?_, r.activation_mem_ended_stopWaits⟩)
      rw [hr]
      rfl
    rw [cancelled_stop, Session.cancelled_visit, hended, Bool.or_true]
  · exact Token.cancelled_mono hmono _ hcancelled

/-- Every turn keeps the waits for lines in order. -/
theorem Observed.turn (h : c.Observed n) (ho : c.Staged) (hp : c.Paced .logs) {m : Move}
    (ht : c.Turn m c') : c'.Observed n := by
  have hmono : ∀ x, c.hasEnded x = true → c'.hasEnded x = true := fun x hx => hasEnded_turn ho ht hx
  -- waits that are left are some of those that were there
  have hsame : ∀ {ws : List Wait}, (∀ t ∈ ws, t ∈ c.waits) →
      ∀ t ∈ ws, ∃ t₀ ∈ c.waits, t₀.awaited = t.awaited := fun hsub t ht => ⟨t, hsub t ht, rfl⟩
  cases ht with
  | aside => exact h
  | endedOutside | appended | announced | received | closed | finished | failed =>
    exact h.of_monitor rfl rfl rfl (fun e he => he) (hsame fun t ht => ht) hmono
  | performed effects | asked effects =>
    exact h.of_monitor rfl rfl rfl (fun e he => effects ▸ List.mem_cons_of_mem _ he)
      (hsame fun t ht => ht) hmono
  | brokeDown =>
    exact h.of_monitor rfl rfl rfl (fun e he => absurd he List.not_mem_nil) (hsame fun t ht => ht)
      hmono
  | began effects stage begins => exact h.began effects begins
  | handled => exact h.handled ho hp hmono
  | left stage effects => exact h.left effects hmono
  -- a wait that wakes changes its mark, and not what it waits for
  | @woke i t wait =>
    refine h.of_monitor rfl rfl rfl (fun e he => he) (fun u hu => ?_) hmono
    rcases List.mem_cons.1 ((perm_set wait { t with woken := true }).mem_iff.1 hu) with rfl | hu
    · exact ⟨t, List.mem_of_getElem? wait, rfl⟩
    · exact ⟨u, List.mem_of_mem_eraseIdx hu, rfl⟩
  | lapsed | posted | dropped =>
    exact h.of_monitor rfl rfl rfl (fun e he => he) (hsame fun t ht => List.mem_of_mem_eraseIdx ht)
      hmono

end Core
end TunnelBoard
