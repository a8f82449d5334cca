import Mathlib.Data.List.Perm.Basic
import TunnelBoard.Proofs.Loop.Stage
/-
  A loop keeps one timer for the screen that shows, and none for a screen that does not.

  The waits of a chain pass through three places: an effect asks for one, the loop keeps it going, and
  when it wakes its message is put into the queue.  `links` collects what they carry on the way.  The
  numbers are only ever used by one chain of waits each, so it is enough to count the current one:

      how often the current number is on the way  =  1 if home shows and its waits go on, else 0

  This is `Paced.one`.  Handling a timer takes its number off the queue and asks for the next wait in
  the same turn; going to another screen gives the number up, and nobody has used the new one
  (`Session.passage_update`).  A wait can be ended, or its message be dropped, only if its number is
  not wanted; that is where the scopes and the stages come in.

  Most turns only carry numbers from one place to the next, so the places together are a permutation
  of what they were (`Paced.of_perm`).  Some lose numbers, and then these must not be wanted
  (`Paced.of_session`); the section on this collects the reasons why they are not.  Only two turns
  change the session, and for those the numbers are counted anew: handling a message
  (`Paced.handled`), and leaving, which stops all waits at once (`Paced.left`).
-/

namespace TunnelBoard

/-- Whether a monitor wants its chain to go on. -/
def Chain.Wants (ch : Chain) (r : Monitor) : Prop := r.screen = ch.home ∧ r.isStopped = false

instance (ch : Chain) (r : Monitor) : Decidable (ch.Wants r) :=
  inferInstanceAs (Decidable (_ ∧ _))

namespace Core

/-- What the waits of a chain carry: those asked for, those that go on, and those that have posted. -/
def links (c : Core) (ch : Chain) : List Link :=
  c.effects.filterMap ch.ofEffect? ++ c.waits.filterMap (ch.ofMessage? ·.awaited.message) ++
    c.queue.filterMap ch.ofMessage?

/-- What the requests of a chain carry, and the answers to them. -/
def answers (c : Core) (ch : Chain) : List Link :=
  c.effects.filterMap ch.ofRequest? ++ c.queue.filterMap ch.ofAnswer?

structure Paced (ch : Chain) (c : Core) : Prop where
  /-- All numbers on the way have been used. -/
  used : ∀ k, k ∈ c.links ch ∨ k ∈ c.answers ch → ch.Reached c.session k
  /-- The current number is on the way once, if it is wanted. -/
  one : ∀ r, c.session.monitor = some r →
    (c.links ch).count (ch.link r) = if ch.Wants r then 1 else 0
  /-- Answers with the current number are wanted. -/
  wanted : ∀ r, c.session.monitor = some r → ch.link r ∈ c.answers ch → ch.Wants r
  effectStop : ∀ e ∈ c.effects, ∀ k, ch.ofEffect? e = some k → e.stop? = some (ch.stop k)
  waitStop : ∀ t ∈ c.waits, ∀ k, ch.ofMessage? t.awaited.message = some k →
    t.stop = (ch.stop k).merge (Token.ofScope .session)

variable {ch : Chain} {c c' : Core}

/-- What is found in a list of one. -/
theorem filterMap_one {α : Type} (f : α → Option Link) (a : α) : [a].filterMap f = (f a).toList := by
  rw [List.filterMap_cons]
  cases f a with
  | none => rfl
  | some k => rfl

/-- One more member may be one more of those that count. -/
theorem count_filterMap_cons {α : Type} (f : α → Option Link) (a : α) (as : List α) (k : Link) :
    ((a :: as).filterMap f).count k = (as.filterMap f).count k + if f a = some k then 1 else 0 := by
  rw [List.filterMap_cons]
  cases hf : f a with
  | none => simp
  | some l =>
    rw [List.count_cons]
    simp

/-! ## Turns that leave the session alone

Here the numbers only change places, from the effects to the waits and from there to the queue, or get
lost when nobody wants them. -/

/-- Numbers may move from one place to the next, and those that are not wanted may get lost. -/
theorem Paced.of_session (h : c.Paced ch) (hs : c'.session = c.session)
    (hlinks : ∀ k ∈ c'.links ch, k ∈ c.links ch) (hanswers : ∀ k ∈ c'.answers ch, k ∈ c.answers ch)
    (hcount : ∀ r, c.session.monitor = some r → ch.Wants r →
      (c'.links ch).count (ch.link r) = (c.links ch).count (ch.link r))
    (he : ∀ e ∈ c'.effects, e ∈ c.effects)
    (hw : ∀ t ∈ c'.waits, ∀ k, ch.ofMessage? t.awaited.message = some k →
      t.stop = (ch.stop k).merge (Token.ofScope .session)) : c'.Paced ch := by
  refine ⟨fun k hk => ?_, fun r hr => ?_, fun r hr hk => ?_, fun e hmem => h.effectStop e (he e hmem),
    hw⟩
  · rw [hs]
    rcases hk with hk | hk
    · exact h.used k (Or.inl (hlinks k hk))
    · exact h.used k (Or.inr (hanswers k hk))
  · rw [hs] at hr
    by_cases hwants : ch.Wants r
    · rw [hcount r hr hwants]
      exact h.one r hr
    · -- a number that is not on the way does not come up from nowhere
      have hzero : (c.links ch).count (ch.link r) = 0 := by rw [h.one r hr, if_neg hwants]
      have habsent : ch.link r ∉ c.links ch := List.count_eq_zero.1 hzero
      rw [if_neg hwants, List.count_eq_zero]
      exact fun hk => habsent (hlinks _ hk)
  · rw [hs] at hr
    exact h.wanted r hr (hanswers _ hk)

/-- The numbers only change places. -/
theorem Paced.of_perm (h : c.Paced ch) (hs : c'.session = c.session)
    (hlinks : (c'.links ch).Perm (c.links ch)) (hanswers : ∀ k ∈ c'.answers ch, k ∈ c.answers ch)
    (he : ∀ e ∈ c'.effects, e ∈ c.effects)
    (hw : ∀ t ∈ c'.waits, ∀ k, ch.ofMessage? t.awaited.message = some k →
      t.stop = (ch.stop k).merge (Token.ofScope .session)) : c'.Paced ch :=
  h.of_session hs (fun _ hk => hlinks.mem_iff.1 hk) hanswers (fun _ _ _ => hlinks.count_eq _) he hw

/-- What is outside, the log and the stage do not matter. -/
theorem Paced.beside (h : c.Paced ch) (outside : List Nat) (ring : LogRing) (unannounced : Nat)
    (quitting : Bool) (stage : Stage) :
    Paced ch { c with outside, ring, unannounced, quitting, stage } :=
  ⟨h.used, h.one, h.wanted, h.effectStop, h.waitStop⟩

/-- A wait that is taken off the waits. -/
theorem perm_eraseIdx {i : Nat} {t : Wait} (hi : c.waits[i]? = some t) :
    c.waits.Perm (t :: c.waits.eraseIdx i) := by
  obtain ⟨hlt, rfl⟩ := List.getElem?_eq_some_iff.1 hi
  exact (List.getElem_cons_eraseIdx_perm hlt).symm

/-- A wait that is changed where it stands. -/
theorem perm_set {i : Nat} {t : Wait} (hi : c.waits[i]? = some t) (t' : Wait) :
    (c.waits.set i t').Perm (t' :: c.waits.eraseIdx i) := by
  obtain ⟨hlt, -⟩ := List.getElem?_eq_some_iff.1 hi
  exact List.set_perm_cons_eraseIdx hlt t'

/-- A message from outside is not of a chain. -/
theorem ofMessage?_of_isOutside (ch : Chain) {m : Message} (h : m.isOutside) :
    ch.ofMessage? m = none ∧ ch.ofAnswer? m = none := by
  cases m with
  | contextEnded | result => exact nomatch h
  | key | resize | activate | showFatal | preferencesChanged | close =>
    cases ch with
    | ticks | logs => exact ⟨rfl, rfl⟩

/-- What answers a request carries the number of the request, and is no timer. -/
theorem ofMessage?_of_asks (ch : Chain) {e : Effect} {m : Message} (h : e.Asks c.ring m) :
    ch.ofMessage? m = none ∧ ch.ofEffect? e = none ∧ ch.ofAnswer? m = ch.ofRequest? e := by
  cases h with
  | logs | traffic =>
    cases ch with
    | ticks | logs => exact ⟨rfl, rfl, rfl⟩

/-- What a wait will post carries the number of the effect that asked for it. -/
theorem ofMessage?_of_begins (ch : Chain) {e : Effect} {awaited : Awaited} {stop : StopToken}
    (h : e.Begins awaited stop) :
    ch.ofMessage? awaited.message = ch.ofEffect? e ∧ ch.ofRequest? e = none ∧
      e.stop? = some stop := by
  cases h with
  | tick | logTick | logChange | contextEnd | ready =>
    cases ch with
    | ticks | logs => exact ⟨rfl, rfl, rfl⟩

/-- A message of a timer is no answer. -/
theorem ofAnswer?_message (a : Awaited) : ch.ofAnswer? a.message = none := by
  cases a with
  | tick | logTick | logChange | contextEnd | ready | farewell =>
    cases ch with
    | ticks | logs => rfl

/-- The numbers on the way are that of the next effect and all others. -/
theorem links_cons {e : Effect} {rest : List Effect} (he : c.effects = e :: rest) :
    c.links ch = (ch.ofEffect? e).toList ++ ({ c with effects := rest } : Core).links ch := by
  unfold links
  rw [he, List.filterMap_cons]
  cases ch.ofEffect? e with
  | none => rfl
  | some k => simp

/-- The numbers of the requests and answers on the way are that of the next effect and all others. -/
theorem answers_cons {e : Effect} {rest : List Effect} (he : c.effects = e :: rest) :
    c.answers ch = (ch.ofRequest? e).toList ++ ({ c with effects := rest } : Core).answers ch := by
  unfold answers
  rw [he, List.filterMap_cons]
  cases ch.ofRequest? e with
  | none => rfl
  | some k => simp

/-- An effect that starts no wait is carried out. -/
theorem Paced.next (h : c.Paced ch) {e : Effect} {rest : List Effect} (he : c.effects = e :: rest)
    (hnone : ch.ofEffect? e = none) : Paced ch { c with effects := rest } := by
  refine h.of_perm rfl ?_ (fun k hk => ?_) (fun x hx => ?_) h.waitStop
  · rw [links_cons he, hnone]
    exact List.Perm.refl _
  · rw [answers_cons he]
    exact List.mem_append_right _ hk
  · rw [he]
    exact List.mem_cons_of_mem _ hx

/-- A wait begins. -/
theorem Paced.began (h : c.Paced ch) {e : Effect} {rest : List Effect} {awaited : Awaited}
    {stop : StopToken} (he : c.effects = e :: rest) (hb : e.Begins awaited stop) :
    Paced ch { c with
      effects := rest
      waits := c.waits ++ [Wait.make awaited (stop.merge (Token.ofScope .session))] } := by
  obtain ⟨hmessage, hrequest, hstop⟩ := ofMessage?_of_begins ch hb
  refine h.of_perm rfl ?_ (fun k hk => ?_) (fun x hx => ?_) (fun t ht k hk => ?_)
  · -- the number goes from the effects to the waits
    rw [links_cons he, List.perm_iff_count]
    intro k
    simp only [links, List.filterMap_append, filterMap_one, List.count_append, Wait.make, hmessage]
    omega
  · rw [answers_cons he, hrequest]
    exact hk
  · rw [he]
    exact List.mem_cons_of_mem _ hx
  · rcases List.mem_append.1 ht with ht | ht
    · exact h.waitStop t ht k hk
    · rw [List.mem_singleton.1 ht] at hk ⊢
      have heffect : ch.ofEffect? e = some k := hmessage ▸ hk
      have := h.effectStop e (he ▸ List.mem_cons_self) k heffect
      rw [hstop] at this
      rw [← Option.some.inj this]
      rfl

/-- A request is answered. -/
theorem Paced.asked (h : c.Paced ch) {e : Effect} {rest : List Effect} {m : Message}
    (he : c.effects = e :: rest) (ha : e.Asks c.ring m) :
    Paced ch { c with effects := rest, queue := c.queue ++ [m] } := by
  obtain ⟨hmessage, heffect, hanswer⟩ := ofMessage?_of_asks ch ha
  refine h.of_perm rfl ?_ (fun k hk => ?_) (fun x hx => ?_) h.waitStop
  · rw [links_cons he, heffect]
    simp [links, hmessage]
  · -- the number goes from the effects to the end of the queue
    rw [answers_cons he, ← hanswer]
    simp only [answers, List.filterMap_append, filterMap_one, List.mem_append] at hk ⊢
    rcases hk with hk | hk | hk
    · exact Or.inr (Or.inl hk)
    · exact Or.inr (Or.inr hk)
    · exact Or.inl hk
  · rw [he]
    exact List.mem_cons_of_mem _ hx

/-- A wait wakes. -/
theorem Paced.woke (h : c.Paced ch) {i : Nat} {t : Wait} (hi : c.waits[i]? = some t)
    (ring : LogRing) : Paced ch { c with waits := c.waits.set i { t with woken := true }, ring } := by
  have hset := perm_set hi { t with woken := true }
  have herase := perm_eraseIdx hi
  refine h.of_perm rfl ?_ (fun k hk => hk) (fun x hx => hx) (fun u hu k hk => ?_)
  · -- a wait that is marked carries what it carried
    have hsame : (c.waits.set i { t with woken := true }).filterMap (ch.ofMessage? ·.awaited.message)
        |>.Perm (c.waits.filterMap (ch.ofMessage? ·.awaited.message)) := by
      refine (hset.filterMap _).trans ((herase.filterMap _).trans ?_).symm
      rw [List.filterMap_cons, List.filterMap_cons]
    exact (hsame.append_left _).append_right _
  · rcases List.mem_cons.1 (hset.mem_iff.1 hu) with rfl | hu
    · exact h.waitStop t (List.mem_of_getElem? hi) k hk
    · exact h.waitStop u (List.mem_of_mem_eraseIdx hu) k hk

/-- A wait is given up whose number is not wanted, or not its own. -/
theorem Paced.erased (h : c.Paced ch) {i : Nat} {t : Wait} (hi : c.waits[i]? = some t)
    (hlost : ∀ r, c.session.monitor = some r → ch.Wants r →
      ch.ofMessage? t.awaited.message ≠ some (ch.link r)) :
    Paced ch { c with waits := c.waits.eraseIdx i } := by
  have herase := (perm_eraseIdx hi).filterMap (ch.ofMessage? ·.awaited.message)
  refine h.of_session rfl (fun k hk => ?_) (fun k hk => hk) (fun r hr hwants => ?_) (fun x hx => hx)
    (fun u hu k hk => h.waitStop u (List.mem_of_mem_eraseIdx hu) k hk)
  · simp only [links, List.mem_append] at hk ⊢
    rcases hk with (hk | hk) | hk
    · exact Or.inl (Or.inl hk)
    · refine Or.inl (Or.inr (herase.mem_iff.2 ?_))
      rw [List.filterMap_cons]
      split
      · exact hk
      · exact List.mem_cons_of_mem _ hk
    · exact Or.inr hk
  · -- the number that is lost is not the wanted one, so that one is counted as before
    have hcount := herase.count_eq (ch.link r)
    rw [count_filterMap_cons, if_neg (hlost r hr hwants)] at hcount
    simp only [links, List.count_append]
    omega

/-- A wait posts its message. -/
theorem Paced.posted (h : c.Paced ch) {i : Nat} {t : Wait} (hi : c.waits[i]? = some t) :
    Paced ch { c with waits := c.waits.eraseIdx i, queue := c.queue ++ [t.awaited.message] } := by
  have herase := (perm_eraseIdx hi).filterMap (ch.ofMessage? ·.awaited.message)
  refine h.of_perm rfl ?_ (fun k hk => ?_) (fun x hx => hx)
    (fun u hu k hk => h.waitStop u (List.mem_of_mem_eraseIdx hu) k hk)
  · -- the number goes from the waits to the queue
    rw [List.perm_iff_count]
    intro k
    have hcount := herase.count_eq k
    rw [count_filterMap_cons] at hcount
    simp only [links, List.filterMap_append, filterMap_one, List.count_append]
    have hone : (ch.ofMessage? t.awaited.message).toList.count k =
        if ch.ofMessage? t.awaited.message = some k then 1 else 0 := by
      cases ch.ofMessage? t.awaited.message with
      | none => rfl
      | some l => simp [List.count_cons]
    omega
  · simp only [answers, List.filterMap_append, filterMap_one, ofAnswer?_message] at hk
    simpa [answers] using hk

/-- The queue is closed when no number is wanted. -/
theorem Paced.closed (h : c.Paced ch) (hnone : ∀ r, c.session.monitor = some r → ¬ ch.Wants r)
    (stage : Stage) : Paced ch { c with stage, queue := [] } := by
  refine h.of_session rfl (fun k hk => ?_) (fun k hk => ?_)
    (fun r hr hwants => absurd hwants (hnone r hr)) (fun x hx => hx) h.waitStop
  · simp only [links, List.filterMap_nil, List.append_nil] at hk ⊢
    exact List.mem_append_left _ hk
  · simp only [answers, List.filterMap_nil, List.append_nil] at hk ⊢
    exact List.mem_append_left _ hk

/-- Effects may be given up when no number is wanted. -/
theorem Paced.brokeDown (h : c.Paced ch) (hnone : ∀ r, c.session.monitor = some r → ¬ ch.Wants r)
    (stage : Stage) : Paced ch { c with stage, effects := [] } := by
  refine h.of_session rfl (fun k hk => ?_) (fun k hk => ?_)
    (fun r hr hwants => absurd hwants (hnone r hr)) (fun x hx => absurd hx List.not_mem_nil)
    h.waitStop
  · simp only [links, List.filterMap_nil, List.nil_append, List.append_assoc] at hk ⊢
    exact List.mem_append_right _ hk
  · simp only [answers, List.filterMap_nil, List.nil_append] at hk ⊢
    exact List.mem_append_right _ hk

/-! ## Where no number is wanted -/

/-- Where no messages are handled any more, no number is wanted. -/
theorem not_wants_of_still (ho : c.Staged) (hs : c.stage ≠ .running) {r : Monitor}
    (hr : c.session.monitor = some r) : ¬ ch.Wants r := by
  intro hwants
  rcases (ho.still hs).2 r hr with hstopped | hscreen
  · exact nomatch hstopped.symm.trans hwants.2
  · have hhome := hscreen.symm.trans hwants.1
    cases ch with
    | ticks | logs => exact nomatch hhome

/-- When the session is over and the loop is not on its way out, no number is wanted. -/
theorem not_wants_of_terminated (ho : c.Staged) (ht : c.session.terminated = true)
    (hq : c.quitting = false) {r : Monitor} (hr : c.session.monitor = some r) : ¬ ch.Wants r := by
  intro hwants
  rcases ho.stopped ht with ⟨-, hquit⟩ | hall
  · exact nomatch hquit.symm.trans hq
  · exact nomatch (hall r hr).symm.trans hwants.2

/-- While preferences are to be saved, the settings show, and no number is wanted. -/
theorem not_wants_of_saving (ho : c.Staged) {p : Preferences} {rest : List Effect}
    (he : c.effects = .savePreferences p :: rest) {r : Monitor} (hr : c.session.monitor = some r) :
    ¬ ch.Wants r := by
  intro hwants
  obtain ⟨-, q, hq, hscreen⟩ := ho.saving _ (he ▸ List.mem_cons_self)
  cases hr.symm.trans hq
  have hhome := hscreen.symm.trans hwants.1
  cases ch with
  | ticks | logs => exact nomatch hhome

/-! ## Turns that change the session

There are two: a message is handled, or all waits are ended.  What a message does to the current
number is said by `Passage`, and what it asks for carries the number that is current afterwards. -/

/-- A number that was never used is not on the way. -/
theorem Paced.not_mem_of_new (h : c.Paced ch) {k : Link} (hk : ¬ ch.Reached c.session k) :
    k ∉ c.links ch ∧ k ∉ c.answers ch :=
  ⟨fun hmem => hk (h.used k (Or.inl hmem)), fun hmem => hk (h.used k (Or.inr hmem))⟩

/-- When all waits are ended, the numbers are given up. -/
theorem Paced.left (h : c.Paced ch) (stage : Stage) :
    Paced ch { c with
      stage, session := { c.session with monitor := c.session.monitor.map Monitor.stopWaits } } := by
  have hnew : ∀ r, c.session.monitor = some r → ¬ ch.Reached c.session (ch.link r.stopWaits) := by
    intro r hr
    refine Session.not_reached_of_lt hr rfl ?_
    rw [Monitor.number_stopWaits]
    exact Nat.lt_succ_self _
  -- and a monitor that is stopped wants none
  have hunwanted : ∀ r : Monitor, ¬ ch.Wants r.stopWaits := by
    intro r hwants
    exact nomatch (Monitor.isStopped_stopWaits r).symm.trans hwants.2
  refine ⟨fun k hk => ?_, fun r' hr' => ?_, fun r' hr' hk => ?_, h.effectStop, h.waitStop⟩
  · obtain ⟨hle, hnumber⟩ := h.used k hk
    refine ⟨hle, fun r' hr' hseq => ?_⟩
    obtain ⟨r, hr, rfl⟩ := Option.map_eq_some_iff.1 hr'
    have := hnumber r hr hseq
    rw [Monitor.number_stopWaits]
    omega
  · obtain ⟨r, hr, rfl⟩ := Option.map_eq_some_iff.1 hr'
    rw [if_neg (hunwanted r)]
    exact List.count_eq_zero.2 (h.not_mem_of_new (hnew r hr)).1
  · obtain ⟨r, hr, rfl⟩ := Option.map_eq_some_iff.1 hr'
    exact absurd hk (h.not_mem_of_new (hnew r hr)).2

/-- What a message asks for on behalf of a chain carries the current number, and is wanted. -/
theorem current_of_update {s : Session} (hs : s.Scoped) (ht : s.terminated = false) {m : Message}
    {e : Effect} (he : e ∈ (s.update m).2.flatten) {k : Link}
    (hk : ch.ofEffect? e = some k ∨ ch.ofRequest? e = some k) :
    ∃ r, (s.update m).1.monitor = some r ∧ k = ch.link r ∧ ch.Wants r := by
  have hscoped := hs.update m
  obtain ⟨r, hr, ht', hmem⟩ := Session.mem_round_of_update hs ht he (Session.kind_of_link hk)
  obtain ⟨hlink, hhome⟩ :=
    Monitor.current_of_mem_round (hscoped.placed ht' hr) (hscoped.monitor r hr) hmem hk
  exact ⟨r, hr, hlink, hhome, hscoped.going ht' r hr⟩

/-- The current number after a message to a session that goes on. -/
theorem one_of_passage (h : c.Paced ch) (heffects : c.effects = []) {m : Message}
    {rest : List Message} (hq : c.queue = m :: rest) {s' : Session} {es : List Effect}
    (hp : Session.Passage ch c.session m s' es) {r' : Monitor} (hr' : s'.monitor = some r') :
    (({ c with session := s', effects := es, queue := rest } : Core).links ch).count (ch.link r') =
      if ch.Wants r' then 1 else 0 := by
  -- no effect is left from before, so every number was in a wait or in the queue
  have hold : ∀ k, (c.links ch).count k =
      (c.waits.filterMap (ch.ofMessage? ·.awaited.message)).count k +
        ((rest.filterMap ch.ofMessage?).count k + if ch.ofMessage? m = some k then 1 else 0) := by
    intro k
    rw [← count_filterMap_cons]
    simp only [links, heffects, hq, List.filterMap_nil, List.nil_append, List.count_append]
  simp only [links, List.count_append]
  cases hp with
  | gone hnone => exact nomatch hnone.symm.trans hr'
  | @kept r _ before after link home stopped starts =>
    cases after.symm.trans hr'
    have hone := h.one r before
    rw [hold] at hone
    have hwants : ch.Wants r' ↔ ch.Wants r := by
      unfold Chain.Wants
      rw [home, stopped]
    rw [link, starts]
    by_cases hm : ch.ofMessage? m = some (ch.link r)
    · -- the timer was counted, so it was wanted, and the next one takes its place
      rw [if_pos hm] at hone
      have hw : ch.Wants r := by
        by_contra hw
        rw [if_neg hw] at hone
        omega
      rw [if_pos hw] at hone
      rw [if_pos ⟨hm, hw.1⟩, if_pos (hwants.2 hw), List.count_singleton_self]
      omega
    · -- the message was not counted, and it starts nothing
      rw [if_neg hm] at hone
      rw [if_neg (fun hboth => hm hboth.1), List.count_nil]
      have hiff : (if ch.Wants r' then 1 else 0) = if ch.Wants r then 1 else 0 := by
        simp only [hwants]
      omega
  | fresh after new starts =>
    -- a number that has never been used is carried by nothing but what is started now
    cases after.symm.trans hr'
    have hzero := List.count_eq_zero.2 (h.not_mem_of_new new).1
    rw [hold] at hzero
    rw [starts]
    by_cases hw : r'.screen = ch.home ∧ r'.isStopped = false
    · rw [if_pos hw, if_pos (show ch.Wants r' from hw), List.count_singleton_self]
      omega
    · rw [if_neg hw, if_neg (show ¬ ch.Wants r' from hw), List.count_nil]
      omega

/-- What a message leaves in the queue was there before. -/
theorem mem_filterMap_queue {m : Message} {rest : List Message} (hq : c.queue = m :: rest)
    {f : Message → Option Link} {k : Link} (hk : k ∈ rest.filterMap f) : k ∈ c.queue.filterMap f := by
  rw [hq, List.filterMap_cons]
  split
  · exact hk
  · exact List.mem_cons_of_mem _ hk

/-- Where no number is wanted, a message may be dropped. -/
theorem Paced.dropped (h : c.Paced ch) {m : Message} {rest : List Message}
    (hq : c.queue = m :: rest) (heffects : c.effects = [])
    (hnone : ∀ r, c.session.monitor = some r → ¬ ch.Wants r) :
    Paced ch { c with effects := [], queue := rest } := by
  refine h.of_session rfl (fun k hk => ?_) (fun k hk => ?_)
    (fun r hr hwants => absurd hwants (hnone r hr)) (fun x hx => absurd hx List.not_mem_nil) h.waitStop
  · simp only [links, heffects, List.filterMap_nil, List.nil_append, List.mem_append] at hk ⊢
    exact hk.imp_right (mem_filterMap_queue hq)
  · simp only [answers, heffects, List.filterMap_nil, List.nil_append] at hk ⊢
    exact mem_filterMap_queue hq hk

/-- What is on the way after a message was so before, or carries the current number. -/
theorem mem_of_handled (hs : c.session.Scoped) (ht : c.session.terminated = false) {m : Message}
    {rest : List Message} (hq : c.queue = m :: rest) {k : Link} {c' : Core}
    (hc : c' = { c with
      session := (c.session.update m).1
      effects := (c.session.update m).2.flatten
      queue := rest })
    (hk : k ∈ c'.links ch ∨ k ∈ c'.answers ch) :
    (∃ r, c'.session.monitor = some r ∧ k = ch.link r) ∨ k ∈ c.links ch ∨ k ∈ c.answers ch := by
  subst hc
  simp only [links, answers, List.mem_append, List.mem_filterMap] at hk
  rcases hk with ((⟨e, he, hk⟩ | hk) | hk) | ⟨e, he, hk⟩ | hk
  · obtain ⟨r, hr, hlink, -⟩ := current_of_update hs ht he (Or.inl hk)
    exact Or.inl ⟨r, hr, hlink⟩
  · simp only [links, List.mem_append, List.mem_filterMap]
    exact Or.inr (Or.inl (Or.inl (Or.inr hk)))
  · exact Or.inr (Or.inl (List.mem_append_right _ (mem_filterMap_queue hq (List.mem_filterMap.2 hk))))
  · obtain ⟨r, hr, hlink, -⟩ := current_of_update hs ht he (Or.inr hk)
    exact Or.inl ⟨r, hr, hlink⟩
  · exact Or.inr (Or.inr (List.mem_append_right _ (mem_filterMap_queue hq (List.mem_filterMap.2 hk))))

/-- Handling a message keeps the pace. -/
theorem Paced.handled (h : c.Paced ch) (ho : c.Staged) {m : Message} {rest : List Message}
    (hq : c.queue = m :: rest) (heffects : c.effects = []) (hquitting : c.quitting = false) :
    Paced ch { c with
      session := (c.session.update m).1
      effects := (c.session.update m).2.flatten
      queue := rest } := by
  cases ht : c.session.terminated with
  | true =>
    rw [Session.update_of_terminated ht, Command.flatten_none]
    exact h.dropped hq heffects fun r hr => not_wants_of_terminated ho ht hquitting hr
  | false =>
    have hscoped := ho.session.update m
    have hpassage := Session.passage_update ho.session ht m ch
    have hchange := Session.update_change (ho.session.standing ht) ht m
    refine ⟨fun k hk => ?_, fun r hr => one_of_passage h heffects hq hpassage hr,
      fun r hr hk => ?_, fun e he k hk => ?_, h.waitStop⟩
    · -- what is on the way had been used before, or is the current number
      rcases mem_of_handled ho.session ht hq rfl hk with ⟨r, hr, rfl⟩ | hold
      · exact Session.reached_link hscoped hr
      · exact Session.reached_of_change hchange (h.used k hold)
    · rcases List.mem_append.1 hk with hk | hk
      · obtain ⟨e, he, hk⟩ := List.mem_filterMap.1 hk
        obtain ⟨q, hq, -, hwants⟩ := current_of_update ho.session ht he (Or.inr hk)
        cases hr.symm.trans hq
        exact hwants
      · have hold : ch.link r ∈ c.answers ch := List.mem_append_right _ (mem_filterMap_queue hq hk)
        -- an answer that is left in the queue: its number is still current only if it was so before
        cases hpassage with
        | gone hnone => exact nomatch hnone.symm.trans hr
        | kept before after link home stopped =>
          cases after.symm.trans hr
          rw [link] at hold
          have hwants := h.wanted _ before hold
          exact ⟨home.2 hwants.1, stopped.trans hwants.2⟩
        | fresh after new =>
          cases after.symm.trans hr
          exact absurd hold (h.not_mem_of_new new).2
    · obtain ⟨r, hr, ht', hmem⟩ :=
        Session.mem_round_of_update ho.session ht he (Session.kind_of_link (Or.inl hk))
      exact Monitor.stop?_of_mem_round (hscoped.placed ht' hr) (hscoped.monitor r hr) hmem hk

/-! ## Every turn

A wait lapses only if its token is cancelled, and the token of a wait that is wanted is not. -/

/-- A wait whose number is wanted cannot be ended. -/
theorem not_cancelled_of_wants (ho : c.Staged) {r : Monitor} (hr : c.session.monitor = some r)
    (hwants : ch.Wants r) :
    ((ch.stop (ch.link r)).merge (Token.ofScope .session)).cancelled c.hasEnded = false := by
  -- neither the session nor the activation nor the visit has been ended
  have hrunning : c.stage = .running := by
    by_contra hs
    exact not_wants_of_still ho hs hr hwants
  have hsession : c.hasEnded .session = false := by
    unfold hasEnded
    rw [hrunning]
    rfl
  -- a scope of the activation that is up has ended only if the monitor has ended it
  have hscope : ∀ x : Scope, x.seq? = some r.seq → x ∉ r.ended → c.session.hasEnded x = false := by
    intro x hx hlive
    have hpast : x ∉ c.session.ended := by
      intro hmem
      obtain ⟨n, hn, -, hlt⟩ := ho.session.past x hmem
      have hseq := ho.session.seq r hr
      have hless := hlt (by rw [hr]; rfl)
      rw [hx] at hn
      have := Option.some.inj hn
      omega
    unfold Session.hasEnded
    simp only [hr, Option.any_some, Bool.or_eq_false_iff]
    exact ⟨by simpa using hpast, by simpa using hlive⟩
  have hactivation : c.hasEnded (.activation r.seq) = false := by
    refine hscope _ rfl ?_
    have := hwants.2
    unfold Monitor.isStopped at this
    simpa using this
  have hvisit : c.hasEnded (.logVisit r.seq r.logSeq) = false := by
    refine hscope _ rfl (fun hmem => ?_)
    rcases (ho.session.monitor r hr).past _ hmem with h | ⟨v, h, hlt⟩
    · exact nomatch h
    · cases h
      omega
  cases ch with
  | ticks => simp [Chain.stop, Chain.link, hactivation, hsession]
  | logs => simp [Chain.stop, Chain.link, Chain.number, hactivation, hvisit, hsession]

/-- Every turn keeps the pace. -/
theorem Paced.turn (h : c.Paced ch) (ho : c.Staged) {m : Move} (ht : c.Turn m c') :
    c'.Paced ch := by
  cases ht with
  | aside => exact h
  | endedOutside | appended | announced | finished => exact h.beside _ _ _ _ _
  | received outside =>
    obtain ⟨hmessage, hanswer⟩ := ofMessage?_of_isOutside ch outside
    refine h.of_perm rfl ?_ (fun k hk => ?_) (fun x hx => hx) h.waitStop
    · simp only [links, List.filterMap_append, filterMap_one, hmessage, Option.toList_none,
        List.append_nil]
      exact List.Perm.refl _
    · simp only [answers, List.filterMap_append, filterMap_one, hanswer, Option.toList_none,
        List.append_nil] at hk ⊢
      exact hk
  | handled queue stage effects quitting => exact h.handled ho queue effects quitting
  | @performed e rest effects stage plain =>
    have hnone : ch.ofEffect? e = none := by
      cases e with
      | emit | quit | clearScreen | savePreferences =>
        cases ch with
        | ticks | logs => rfl
      | scheduleTick | scheduleLogTick | watchLog | fetchLogs | sampleTraffic | awaitContextEnd
        | awaitReady => exact nomatch plain
    exact (h.next effects hnone).beside _ _ _ _ _
  -- what is given up here belongs to the settings screen, where no number is wanted
  | brokeDown effects => exact h.brokeDown (fun r hr => not_wants_of_saving ho effects hr) _
  | began effects stage begins => exact h.began effects begins
  | asked effects stage asks => exact h.asked effects asks
  | failed => exact ⟨h.used, h.one, h.wanted, h.effectStop, h.waitStop⟩
  | left => exact h.left _
  | closed stage =>
    exact h.closed (fun r hr => not_wants_of_still ho (by rw [stage]; decide) hr) _
  | woke wait => exact h.woke wait _
  | lapsed wait stop =>
    -- a wait lapses once its token has been cancelled, and that of a wanted number cannot be
    refine h.erased wait fun r hr hwants hlink => ?_
    have htoken := h.waitStop _ (List.mem_of_getElem? wait) _ hlink
    rw [htoken, not_cancelled_of_wants ho hr hwants] at stop
    exact nomatch stop
  | posted wait => exact h.posted wait
  -- a wait is dropped when no messages are taken any more
  | dropped wait stage =>
    refine h.erased wait fun r hr hwants _ => not_wants_of_still ho (fun hs => ?_) hr hwants
    rw [hs] at stage
    rcases stage with stage | stage
    · exact nomatch stage
    · exact nomatch stage

end Core
end TunnelBoard
