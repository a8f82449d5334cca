import TunnelBoard.Proofs.Loop.Margin
import TunnelBoard.Proofs.Loop.Refresh
import TunnelBoard.Proofs.Loop.Watch
import TunnelBoard.Proofs.Session.Activations
/-
  Activations are kept apart.

  The waits of an activation are not stopped at once when it is over, so its messages may be handled
  long after it, when another one is up.  Along a run we write down the activations that were taken,
  in order, and the losses that were told, and tie both to the state of the loop (`Accounted`):

  * what waits for the end or the readiness of an activation waits for that activation's own token or
    signal, and has woken only if that has happened (`Awaited.IsOf`, `Message.IsTrue`);
  * a loss that has been told is one of an activation that is not up any more, so it is not told
    again.

  Every move keeps the account (`accounted_step`), and a message that is out of date by its number
  changes nothing (`Session.update_of_stale`).  Both together are the theorem at the end,
  `activations_isolated`.

  What a message reports is true when the wait wakes, and by the time it is handled it may be old; but
  it does not become false, because scopes that have ended stay so and signals that were given stay
  given (`Message.IsTrue.mono`).  This is why no order among the waits has to be assumed.

  Only handling a message takes an activation or tells a loss.  All other moves leave the account as
  it is, and only carry on what is on its way: there is one lemma for moves that add nothing
  (`Accounted.quiet`), and one each for what comes into the queue (`Accounted.posted`), a wait that
  begins (`Accounted.began`) and a wait that wakes (`Accounted.woke`).
-/

namespace TunnelBoard

/-- The activation with a number.  Numbers are counted from one. -/
def numbered (as : List Activation) : Nat → Option Activation
  | 0 => none
  | k + 1 => as[k]?

/-- An activation keeps its number when others follow. -/
theorem numbered_append {as : List Activation} {k : Nat} {a : Activation}
    (h : numbered as k = some a) (more : List Activation) : numbered (as ++ more) k = some a := by
  cases k with
  | zero => exact nomatch h
  | succ k =>
    have hlt : k < as.length := (List.getElem?_eq_some_iff.1 h).1
    exact (List.getElem?_append_left hlt).trans h

/-- An activation that is added has the next number. -/
theorem numbered_snoc (as : List Activation) (a : Activation) :
    numbered (as ++ [a]) (as.length + 1) = some a :=
  List.getElem?_concat_length

/-- Whether what is waited for is a matter of the activation whose number the wait carries. -/
def Awaited.IsOf (as : List Activation) : Awaited → Prop
  | contextEnd k context => ∃ a, numbered as k = some a ∧ a.context = context
  | ready k signal => ∃ a, numbered as k = some a ∧ a.ready = some signal
  | _ => True

/-- Whether what a message reports of a data plane is the case, with the signals that have been given:
    the context of its own activation is over, or the signal of its own activation is there. -/
def Message.IsTrue (as : List Activation) (signals : List Nat) (ended : Scope → Bool) :
    Message → Prop
  | contextEnded k => ∃ a, numbered as k = some a ∧ a.context.cancelled ended = true
  | result k .ready =>
    ∃ a signal, numbered as k = some a ∧ a.ready = some signal ∧ signal ∈ signals
  | _ => True

section

variable {as : List Activation} {signals signals' : List Nat} {ended ended' : Scope → Bool}

/-- What a wait is for stays so when other activations follow. -/
theorem Awaited.IsOf.append {awaited : Awaited} (h : awaited.IsOf as) (more : List Activation) :
    awaited.IsOf (as ++ more) := by
  cases awaited with
  | contextEnd | ready =>
    obtain ⟨a, ha, hsame⟩ := h
    exact ⟨a, numbered_append ha more, hsame⟩
  | tick | logTick | logChange | farewell => trivial

/-- What is true stays true. -/
theorem Message.IsTrue.mono {m : Message} (h : m.IsTrue as signals ended) (more : List Activation)
    (hsignals : ∀ x ∈ signals, x ∈ signals') (hended : ∀ x, ended x = true → ended' x = true) :
    m.IsTrue (as ++ more) signals' ended' := by
  cases m with
  | contextEnded k =>
    obtain ⟨a, ha, hover⟩ := h
    exact ⟨a, numbered_append ha more, Token.cancelled_mono hended _ hover⟩
  | result k result =>
    cases result with
    | ready =>
      obtain ⟨a, signal, ha, hready, hmem⟩ := h
      exact ⟨a, signal, numbered_append ha more, hready, hsignals _ hmem⟩
    | tick | trafficSampled | logTick | logsChanged | logsFetched => trivial
  | key | resize | activate | showFatal | preferencesChanged | close => trivial

/-- What comes from outside reports nothing of a data plane. -/
theorem Message.isTrue_of_isOutside {m : Message} (h : m.isOutside) : m.IsTrue as signals ended := by
  cases m with
  | contextEnded | result => exact nomatch h
  | key | resize | activate | showFatal | preferencesChanged | close => trivial

/-- What answers a request reports nothing of a data plane. -/
theorem Message.isTrue_of_asks {ring : LogRing} {e : Effect} {m : Message} (h : e.Asks ring m) :
    m.IsTrue as signals ended := by
  cases h with
  | logs | traffic => trivial

/-- What has happened is reported. -/
theorem Awaited.isTrue_message {w : World} {awaited : Awaited} (h : awaited.IsOf as)
    (hw : awaited.happened w ended = true) : awaited.message.IsTrue as w.signals ended := by
  cases awaited with
  | contextEnd k context =>
    obtain ⟨a, ha, rfl⟩ := h
    exact ⟨a, ha, hw⟩
  | ready k signal =>
    obtain ⟨a, ha, hready⟩ := h
    exact ⟨a, signal, ha, hready, List.contains_iff_mem.1 hw⟩
  | tick | logTick | logChange | farewell => trivial

/-- The waits that an activation begins with are a matter of that activation. -/
theorem isOf_of_mem_waits {a : Activation} {k : Nat} (hk : numbered as k = some a) {e : Effect}
    (he : e ∈ a.waits k) {awaited : Awaited} {stop : StopToken} (hb : e.Begins awaited stop) :
    awaited.IsOf as := by
  unfold Activation.waits at he
  rcases List.mem_cons.1 he with rfl | he
  · cases hb
    exact ⟨a, hk, rfl⟩
  · obtain ⟨signal, hready, rfl⟩ := Option.map_eq_some_iff.1 (Option.mem_toList.1 he)
    cases hb
    exact ⟨a, hk, hready⟩

end

namespace Core

/-- The activations that a move takes. -/
def accepted (c : Core) : Move → List Activation
  | .handle => c.queue.head?.toList.flatMap c.session.accepted
  | _ => []

/-- The activations whose loss a move tells, by their numbers. -/
def losses (c : Core) : Move → List Nat
  | .handle => c.queue.head?.toList.flatMap c.session.losses
  | _ => []

/-- The account of a run: the activations `as` were taken, the losses of `told` were told, and the
    `signals` have been given. -/
structure Accounted (as : List Activation) (told signals : List Nat) (c : Core) : Prop where
  staged : c.Staged
  count : c.session.activationSeq = as.length
  started : ∀ e ∈ c.effects, ∀ k, e.seq? = some k → ∃ r, c.session.monitor = some r ∧ r.seq = k
  effects : ∀ e ∈ c.effects, ∀ awaited stop, e.Begins awaited stop → awaited.IsOf as
  waits : ∀ t ∈ c.waits, t.awaited.IsOf as
  woken : ∀ t ∈ c.waits, t.woken = true → t.awaited.message.IsTrue as signals c.hasEnded
  queue : ∀ m ∈ c.queue, m.IsTrue as signals c.hasEnded
  connected : ∀ r, c.session.monitor = some r → r.connected = true →
    ∃ a, numbered as r.seq = some a ∧ ∀ signal, a.ready = some signal → signal ∈ signals
  once : told.Nodup
  /-- An activation whose loss has been told is not up any more. -/
  parted : ∀ k ∈ told, k ≤ as.length ∧ ∀ r, c.session.monitor = some r → r.seq ≠ k

variable {as : List Activation} {told signals signals' : List Nat} {c c' : Core}

/-- The monitor that is up is that of the newest activation. -/
theorem Accounted.live (h : c.Accounted as told signals) {r : Monitor}
    (hr : c.session.monitor = some r) : r.seq = as.length :=
  (h.staged.session.seq r hr).trans h.count

/-- What a move has to leave in order, when it handles no message: the monitor, if one is up, and what
    it adds to the waits and to the queue. -/
theorem Accounted.of_beside (h : c.Accounted as told signals) (hstaged : c'.Staged)
    (hsignals : ∀ x ∈ signals, x ∈ signals') (hended : ∀ x, c.hasEnded x = true → c'.hasEnded x = true)
    (hsession : c'.session.activationSeq = c.session.activationSeq)
    (hmonitor : c'.session.monitor = c.session.monitor ∨
      (c'.effects = [] ∧ c'.session.monitor = c.session.monitor.map Monitor.stopWaits))
    (heffects : ∀ e ∈ c'.effects, e ∈ c.effects) (hwaits : ∀ t ∈ c'.waits, t.awaited.IsOf as)
    (hwoken : ∀ t ∈ c'.waits, t.woken = true → t.awaited.message.IsTrue as signals' c'.hasEnded)
    (hqueue : ∀ m ∈ c'.queue, m ∈ c.queue ∨ m.IsTrue as signals' c'.hasEnded) :
    c'.Accounted as told signals' := by
  -- a monitor whose waits are stopped keeps its number, and is as well connected
  have hbefore : ∀ r', c'.session.monitor = some r' →
      ∃ r, c.session.monitor = some r ∧ r'.seq = r.seq ∧ r'.connected = r.connected := by
    intro r' hr'
    rcases hmonitor with hm | ⟨-, hm⟩
    · exact ⟨r', hm ▸ hr', rfl, rfl⟩
    · rw [hm] at hr'
      obtain ⟨r, hr, rfl⟩ := Option.map_eq_some_iff.1 hr'
      exact ⟨r, hr, rfl, rfl⟩
  refine ⟨hstaged, hsession.trans h.count, fun e he k hk => ?_, fun e he => h.effects e (heffects e he),
    hwaits, hwoken, fun m hm => ?_, fun r' hr' hc => ?_, h.once, fun k hk => ?_⟩
  · rcases hmonitor with hm | ⟨hnone, -⟩
    · rw [hm]
      exact h.started e (heffects e he) k hk
    · rw [hnone] at he
      exact absurd he List.not_mem_nil
  · rcases hqueue m hm with hm | hm
    · have htrue := (h.queue m hm).mono [] hsignals hended
      rwa [List.append_nil] at htrue
    · exact hm
  · obtain ⟨r, hr, hseq, hsame⟩ := hbefore r' hr'
    obtain ⟨a, ha, hgiven⟩ := h.connected r hr (hsame ▸ hc)
    exact ⟨a, hseq ▸ ha, fun signal hs => hsignals _ (hgiven signal hs)⟩
  · obtain ⟨hle, hnot⟩ := h.parted k hk
    refine ⟨hle, fun r' hr' => ?_⟩
    obtain ⟨r, hr, hseq, -⟩ := hbefore r' hr'
    rw [hseq]
    exact hnot r hr

/-- The loss that the next message tells is one that has happened, of an activation that is up. -/
theorem Accounted.cause (h : c.Accounted as told signals) {k : Nat} (hk : k ∈ c.losses .handle) :
    (∃ a, numbered as k = some a ∧ a.context.cancelled c.hasEnded = true) ∧
      ∃ r, c.session.monitor = some r ∧ r.seq = k := by
  obtain ⟨m, hm, hk⟩ := List.mem_flatMap.1 hk
  have hmem : m ∈ c.queue := List.mem_of_mem_head? (Option.mem_toList.1 hm)
  rcases Session.losses_cases h.staged.session m with hnone | ⟨hone, hreport, ⟨r, hr⟩, -⟩
  · rw [hnone] at hk
    exact absurd hk List.not_mem_nil
  · rw [hone] at hk
    cases List.mem_singleton.1 hk
    have htrue := h.queue m hmem
    rw [hreport] at htrue
    exact ⟨htrue, r, hr, h.staged.session.seq r hr⟩

/-- Where a data plane is shown as ready, the next message leaves it so, or says so itself. -/
theorem Accounted.connected_handled (h : c.Accounted as told signals) {m : Message}
    (hmem : m ∈ c.queue) (hsignals : ∀ x ∈ signals, x ∈ signals') {r : Monitor}
    (hr : (c.session.update m).1.monitor = some r) (hc : r.connected = true) :
    ∃ a, numbered (as ++ c.session.accepted m) r.seq = some a ∧
      ∀ signal, a.ready = some signal → signal ∈ signals' := by
  have htrue : m.IsTrue as signals c.hasEnded := h.queue m hmem
  cases Session.succession_update h.staged.session m with
  | stayed none seq monitor =>
    obtain ⟨q, hq, hseq, -, hcause⟩ := monitor r hr
    rw [none, List.append_nil, hseq]
    -- connected before, or by this very message, which is true
    rcases hcause hc with hbefore | hready
    · obtain ⟨a, ha, hgiven⟩ := h.connected q hq hbefore
      exact ⟨a, ha, fun signal hs => hsignals _ (hgiven signal hs)⟩
    · rw [hready] at htrue
      obtain ⟨a, signal, ha, hwanted, hgiven⟩ := htrue
      refine ⟨a, ha, fun other hother => ?_⟩
      cases hwanted.symm.trans hother
      exact hsignals _ hgiven
  -- a new activation counts as connected at once only if it has nothing to wait for
  | @began a q one seq monitor number connected =>
    cases monitor.symm.trans hr
    rw [connected, Option.isNone_iff_eq_none] at hc
    refine ⟨a, ?_, fun signal hs => nomatch hc.symm.trans hs⟩
    rw [one, number, h.count]
    exact numbered_snoc as a

/-- The loss that the next message tells has not been told before, for the activation is up. -/
theorem Accounted.once_handled (h : c.Accounted as told signals) (m : Message) :
    (told ++ c.session.losses m).Nodup := by
  rcases Session.losses_cases h.staged.session m with hnone | ⟨hone, -, ⟨r, hr⟩, -⟩
  · rw [hnone, List.append_nil]
    exact h.once
  · rw [hone]
    refine List.nodup_append.2 ⟨h.once, by simp, fun k hk l hl => ?_⟩
    rw [List.mem_singleton.1 hl, ← h.staged.session.seq r hr]
    exact ((h.parted k hk).2 r hr).symm

/-- An activation whose loss has been told does not come up again. -/
theorem Accounted.parted_handled (h : c.Accounted as told signals) (m : Message) :
    ∀ k ∈ told ++ c.session.losses m, k ≤ (as ++ c.session.accepted m).length ∧
      ∀ r, (c.session.update m).1.monitor = some r → r.seq ≠ k := by
  have hlength : as.length ≤ (as ++ c.session.accepted m).length := by
    rw [List.length_append]
    exact Nat.le_add_right _ _
  intro k hk
  rcases List.mem_append.1 hk with hk | hk
  · obtain ⟨hle, hnot⟩ := h.parted k hk
    refine ⟨Nat.le_trans hle hlength, fun r' hr' => ?_⟩
    -- who comes up has a new number, which is larger than all that have been given
    cases Session.succession_update h.staged.session m with
    | stayed none seq monitor =>
      obtain ⟨r, hr, hseq, -⟩ := monitor r' hr'
      rw [hseq]
      exact hnot r hr
    | began one seq monitor number =>
      cases monitor.symm.trans hr'
      rw [number, h.count]
      omega
  · rcases Session.losses_cases h.staged.session m with hnone | ⟨hone, -, -, hdown⟩
    · rw [hnone] at hk
      exact absurd hk List.not_mem_nil
    · rw [hone] at hk
      rw [List.mem_singleton.1 hk, h.count]
      exact ⟨hlength, fun r' hr' => nomatch hdown.symm.trans hr'⟩

/-- Handling a message keeps the account, with what the message adds to it. -/
theorem Accounted.handled (h : c.Accounted as told signals) {m : Message} {rest : List Message}
    (hq : c.queue = m :: rest) (hsignals : ∀ x ∈ signals, x ∈ signals')
    (hstaged : Staged { c with
      session := (c.session.update m).1
      effects := (c.session.update m).2.flatten
      queue := rest })
    (hended : ∀ x, c.hasEnded x = true → hasEnded { c with
      session := (c.session.update m).1
      effects := (c.session.update m).2.flatten
      queue := rest } x = true) :
    Accounted (as ++ c.session.accepted m) (told ++ c.session.losses m) signals' { c with
      session := (c.session.update m).1
      effects := (c.session.update m).2.flatten
      queue := rest } := by
  have hscoped := h.staged.session
  constructor
  case staged => exact hstaged
  case count =>
    rw [List.length_append]
    cases Session.succession_update hscoped m with
    | stayed none seq => rw [none, seq, h.count]; rfl
    | began one seq => rw [one, seq, h.count]; rfl
  case started => exact fun e he k hk => Session.seq?_of_mem_update hscoped he hk
  case effects =>
    intro e he awaited stop hb
    -- only the waits of an activation that begins are a matter of one
    by_cases hkind : e.kind = .vigil
    · obtain ⟨a, hone, hmem⟩ := Session.waits_of_mem_update hscoped he hkind
      rw [hone]
      rw [h.count] at hmem
      exact isOf_of_mem_waits (numbered_snoc as a) hmem hb
    · cases hb with
      | tick | logTick | logChange => trivial
      | contextEnd | ready => exact absurd rfl hkind
  case waits => exact fun t ht => (h.waits t ht).append _
  case woken => exact fun t ht hwoken => (h.woken t ht hwoken).mono _ hsignals hended
  case queue =>
    intro n hn
    exact (h.queue n (hq ▸ List.mem_cons_of_mem _ hn)).mono _ hsignals hended
  case connected =>
    exact fun r hr hc => h.connected_handled (hq ▸ List.mem_cons_self) hsignals hr hc
  case once => exact h.once_handled m
  case parted => exact h.parted_handled m

/-- Only what handles a message adds to the account. -/
theorem adds_nothing {m : Move} (h : m ≠ .handle) : c.accepted m = [] ∧ c.losses m = [] := by
  cases m with
  | handle => exact absurd rfl h
  | place | perform | failPaint | leave | close | finish | wake | lapse | post | stepWriter | receive
    | takeEvent | endScope | signal | append | announce | pass => exact ⟨rfl, rfl⟩

/-- What a turn does not take back: the order of the stages is kept, and signals that were given and
    scopes that have ended stay so.  Whatever was true before it is true after it. -/
structure Onward (c : Core) (signals : List Nat) (c' : Core) (signals' : List Nat) : Prop where
  staged : c'.Staged
  signals : ∀ x ∈ signals, x ∈ signals'
  ended : ∀ x, c.hasEnded x = true → c'.hasEnded x = true

/-- What a message tells stays true on the way. -/
theorem Onward.isTrue (h : c.Onward signals c' signals') {m : Message}
    (hm : m.IsTrue as signals c.hasEnded) : m.IsTrue as signals' c'.hasEnded := by
  have htrue := hm.mono [] h.signals h.ended
  rwa [List.append_nil] at htrue

/-- A turn that adds nothing: of the effects, the waits and the messages there are at most as many as
    before. -/
theorem Accounted.quiet (h : c.Accounted as told signals) (hon : c.Onward signals c' signals')
    (hsession : c'.session.activationSeq = c.session.activationSeq)
    (hmonitor : c'.session.monitor = c.session.monitor ∨
      (c'.effects = [] ∧ c'.session.monitor = c.session.monitor.map Monitor.stopWaits))
    (heffects : ∀ e ∈ c'.effects, e ∈ c.effects) (hwaits : ∀ t ∈ c'.waits, t ∈ c.waits)
    (hqueue : ∀ m ∈ c'.queue, m ∈ c.queue) : c'.Accounted as told signals' :=
  h.of_beside hon.staged hon.signals hon.ended hsession hmonitor heffects
    (fun t ht => h.waits t (hwaits t ht)) (fun t ht hw => hon.isTrue (h.woken t (hwaits t ht) hw))
    (fun m hm => Or.inl (hqueue m hm))

/-- A turn that puts a message into the queue.  Whatever it reports of a data plane has to be so. -/
theorem Accounted.posted (h : c.Accounted as told signals) (hon : c.Onward signals c' signals')
    (hsession : c'.session = c.session) (heffects : ∀ e ∈ c'.effects, e ∈ c.effects)
    (hwaits : ∀ t ∈ c'.waits, t ∈ c.waits) {m : Message} (hqueue : c'.queue = c.queue ++ [m])
    (htrue : m.IsTrue as signals' c'.hasEnded) : c'.Accounted as told signals' := by
  refine h.of_beside hon.staged hon.signals hon.ended (by rw [hsession]) (Or.inl (by rw [hsession]))
    heffects (fun t ht => h.waits t (hwaits t ht))
    (fun t ht hw => hon.isTrue (h.woken t (hwaits t ht) hw)) (fun n hn => ?_)
  rw [hqueue] at hn
  refine (List.mem_append.1 hn).imp_right fun hn => ?_
  rw [List.mem_singleton.1 hn]
  exact htrue

/-- An effect begins a wait, which is a matter of the activation that the effect came from. -/
theorem Accounted.began (h : c.Accounted as told signals) {e : Effect} {rest : List Effect}
    {awaited : Awaited} {stop stop' : StopToken} (effects : c.effects = e :: rest)
    (begins : e.Begins awaited stop)
    (hon : c.Onward signals
      { c with effects := rest, waits := c.waits ++ [Wait.make awaited stop'] } signals') :
    Accounted as told signals'
      { c with effects := rest, waits := c.waits ++ [Wait.make awaited stop'] } := by
  refine h.of_beside hon.staged hon.signals hon.ended rfl (Or.inl rfl)
    (fun e he => effects ▸ List.mem_cons_of_mem _ he) (fun t ht => ?_) (fun t ht hw => ?_)
    (fun n hn => Or.inl hn)
  · rcases List.mem_append.1 ht with ht | ht
    · exact h.waits t ht
    · rw [List.mem_singleton.1 ht]
      exact h.effects e (effects ▸ List.mem_cons_self) awaited stop begins
  · rcases List.mem_append.1 ht with ht | ht
    · exact hon.isTrue (h.woken t ht hw)
    · -- a wait that has just begun is asleep
      rw [List.mem_singleton.1 ht] at hw
      cases hw

/-- A wait wakes, for what it waits for has happened. -/
theorem Accounted.woke (h : c.Accounted as told signals) {i : Nat} {t : Wait} {ring : LogRing}
    (wait : c.waits[i]? = some t)
    (hon : c.Onward signals { c with waits := c.waits.set i { t with woken := true }, ring } signals')
    (hreason : t.awaited.IsOf as → t.awaited.message.IsTrue as signals c.hasEnded) :
    Accounted as told signals' { c with waits := c.waits.set i { t with woken := true }, ring } := by
  have hof : t.awaited.IsOf as := h.waits t (List.mem_of_getElem? wait)
  have hmem : ∀ u ∈ c.waits.set i { t with woken := true }, u = { t with woken := true } ∨ u ∈ c.waits :=
    fun u hu => (List.mem_or_eq_of_mem_set hu).symm
  refine h.of_beside hon.staged hon.signals hon.ended rfl (Or.inl rfl) (fun e he => he)
    (fun u hu => ?_) (fun u hu hw => ?_) (fun n hn => Or.inl hn)
  · rcases hmem u hu with rfl | hu
    · exact hof
    · exact h.waits u hu
  · rcases hmem u hu with rfl | hu
    · exact hon.isTrue (hreason hof)
    · exact hon.isTrue (h.woken u hu hw)

/-- The next message is handled: the one turn that takes activations and tells losses. -/
theorem Accounted.turn_handle (h : c.Accounted as told signals) (ht : c.Turn .handle c')
    (hon : c.Onward signals c' signals') :
    c'.Accounted (as ++ c.accepted .handle) (told ++ c.losses .handle) signals' := by
  cases ht with
  | aside aside => cases aside
  | @handled m rest queue =>
    have hhead : c.queue.head?.toList = [m] := by
      rw [queue]
      rfl
    rw [accepted, losses, hhead, List.flatMap_singleton, List.flatMap_singleton]
    exact h.handled queue hon.signals hon.staged hon.ended

/-- Every turn keeps the account, as long as waits wake for a reason. -/
theorem Accounted.turn (h : c.Accounted as told signals) {m : Move} (ht : c.Turn m c')
    (hsignals : ∀ x ∈ signals, x ∈ signals')
    (hreason : ∀ i t, m = .wake i → c.waits[i]? = some t → t.awaited.IsOf as →
      t.awaited.message.IsTrue as signals c.hasEnded) :
    c'.Accounted (as ++ c.accepted m) (told ++ c.losses m) signals' := by
  have hon : c.Onward signals c' signals' :=
    ⟨h.staged.turn ht, hsignals, fun x hx => hasEnded_turn h.staged ht hx⟩
  by_cases hm : m = .handle
  · subst hm
    exact h.turn_handle ht hon
  · -- the account itself stays as it is, and the rest is about what is still on its way
    obtain ⟨haccepted, hlosses⟩ := adds_nothing (c := c) hm
    rw [haccepted, hlosses, List.append_nil, List.append_nil]
    cases ht with
    | handled => exact absurd rfl hm
    | aside | endedOutside | appended | announced | failed | finished =>
      exact h.quiet hon rfl (Or.inl rfl) (fun e he => he) (fun t ht => ht) (fun n hn => hn)
    | performed effects =>
      exact h.quiet hon rfl (Or.inl rfl) (fun e he => effects ▸ List.mem_cons_of_mem _ he)
        (fun t ht => ht) (fun n hn => hn)
    | brokeDown =>
      exact h.quiet hon rfl (Or.inl rfl) (fun e he => absurd he List.not_mem_nil) (fun t ht => ht)
        (fun n hn => hn)
    | left stage effects =>
      exact h.quiet hon rfl (Or.inr ⟨effects, rfl⟩) (fun e he => he) (fun t ht => ht) (fun n hn => hn)
    | closed =>
      exact h.quiet hon rfl (Or.inl rfl) (fun e he => he) (fun t ht => ht)
        (fun n hn => absurd hn List.not_mem_nil)
    | lapsed | dropped =>
      exact h.quiet hon rfl (Or.inl rfl) (fun e he => he) (fun t ht => List.mem_of_mem_eraseIdx ht)
        (fun n hn => hn)
    | received outside =>
      exact h.posted hon rfl (fun e he => he) (fun t ht => ht) rfl (Message.isTrue_of_isOutside outside)
    | asked effects stage asks =>
      exact h.posted hon rfl (fun e he => effects ▸ List.mem_cons_of_mem _ he) (fun t ht => ht) rfl
        (Message.isTrue_of_asks asks)
    | @posted i t wait stage woken =>
      have htrue := h.woken t (List.mem_of_getElem? wait) woken
      exact h.posted hon rfl (fun e he => he) (fun t ht => List.mem_of_mem_eraseIdx ht) rfl
        (hon.isTrue htrue)
    | began effects stage begins => exact h.began effects begins hon
    | @woke i t wait => exact h.woke wait hon (hreason i t rfl wait)

end Core

namespace Loop

variable {l l' : Loop} {as : List Activation} {told : List Nat}

/-! ## Every state of a run

A turn keeps the account if waits wake for a reason, and in a loop they do: the world has to have
given the signal, or a scope has to have ended. -/

/-- The activations that a run takes, oldest first. -/
def activations (l : Loop) (moves : List Move) : List Activation := l.trace (·.core.accepted) moves

/-- The activations whose loss a run tells, one number for each time. -/
def lost (l : Loop) (moves : List Move) : List Nat := l.trace (·.core.losses) moves

/-- A wait wakes when what it waits for has happened. -/
theorem happened_of_wake {i : Nat} {t : Wait} (h : l.step (.wake i) = some l')
    (ht : l.waits[i]? = some t) : t.awaited.happened l.world l.hasEnded = true := by
  simp only [step, wake, ht] at h
  split at h
  · rename_i hwake
    exact (Bool.and_eq_true_iff.1 hwake).2
  · cases h

/-- Every move keeps the account. -/
theorem accounted_step (h : l.core.Accounted as told l.world.signals) {m : Move} (hm : m.isProper)
    (hs : l.step m = some l') :
    l'.core.Accounted (as ++ l.core.accepted m) (told ++ l.core.losses m) l'.world.signals := by
  refine h.turn (turn_of_step hm hs) (fun x hx => signals_step hs hx) (fun i t hi ht hof => ?_)
  subst hi
  have hended : l.core.hasEnded = l.hasEnded := funext l.hasEnded_core
  rw [hended]
  exact Awaited.isTrue_message hof (happened_of_wake hs ht)

variable {config : Config} {prefs : Preferences} {logs : LogSource} {size : TerminalSize}
  {capacity : Nat} {store : PreferencesStore} {world : World}

/-- The account of a run. -/
theorem accounted_run {moves : List Move} (hp : ∀ m ∈ moves, m.isProper)
    (hr : (start (Session.make config prefs logs size) capacity store world).run moves = some l) :
    l.core.Accounted
      ((start (Session.make config prefs logs size) capacity store world).activations moves)
      ((start (Session.make config prefs logs size) capacity store world).lost moves)
      l.world.signals := by
  refine history_induction (P := fun ms l' => l'.core.Accounted
    ((start (Session.make config prefs logs size) capacity store world).activations ms)
    ((start (Session.make config prefs logs size) capacity store world).lost ms)
    l'.world.signals) ?_ (fun ms l₁ m l₂ hm hms h hs => ?_) hp hr
  · have hstaged := Core.staged_start config prefs logs size capacity store world
    obtain ⟨hmonitor, -, -, -, -, hseq⟩ := Session.begun_frame config prefs logs size
    -- a session that begins has asked for nothing but its end
    have hopening : ∀ e ∈ Session.opening config prefs logs size, e.kind = .told := by
      intro e he
      rcases Session.begun_cases config prefs logs size with ⟨-, -, hnone⟩ | ⟨-, -, cause, hend⟩
      · rw [hnone] at he
        exact absurd he List.not_mem_nil
      · rw [hend] at he
        rcases List.mem_cons.1 he with rfl | he
        · rfl
        · rw [List.mem_singleton.1 he]
          rfl
    rw [Core.core_start] at hstaged ⊢
    refine ⟨hstaged, hseq, fun e he k hk => ?_, fun e he awaited stop hb => ?_,
      fun t ht => absurd ht List.not_mem_nil, fun t ht => absurd ht List.not_mem_nil,
      fun m hm => absurd hm List.not_mem_nil, fun r hr => (nomatch hmonitor.symm.trans hr),
      List.nodup_nil, fun k hk => absurd hk List.not_mem_nil⟩
    · have htold := hopening e he
      cases e with
      | emit | quit => exact nomatch hk
      | clearScreen | savePreferences | scheduleTick | scheduleLogTick | watchLog | fetchLogs
        | sampleTraffic | awaitContextEnd | awaitReady => exact nomatch htold
    · have htold := hopening e he
      cases hb with
      | tick | logTick | logChange | contextEnd | ready => exact nomatch htold
  · rw [activations, lost, trace_snoc _ hms, trace_snoc _ hms]
    exact accounted_step h hm hs

/-- An activation that is connected is not cut off again while its monitor is up. -/
theorem connected_run {moves : List Move} (hp : ∀ m ∈ moves, m.isProper) (hs : l.core.Staged)
    (hrun : l.run moves = some l') {r r' : Monitor} (hr : l.session.monitor = some r)
    (hr' : l'.session.monitor = some r') (hseq : r.seq = r'.seq) (hc : r.connected = true) :
    r'.connected = true := by
  -- the number cannot be given to another activation, since new ones are higher
  have hall : l'.core.Staged ∧ r.seq ≤ l'.core.session.activationSeq ∧
      ∀ q, l'.core.session.monitor = some q → q.seq = r.seq → q.connected = true := by
    refine run_induction (P := fun c => c.Staged ∧ r.seq ≤ c.session.activationSeq ∧
      ∀ q, c.session.monitor = some q → q.seq = r.seq → q.connected = true)
      (fun c m c' h ht => ⟨h.1.turn ht, ?_⟩) hp ⟨hs, ?_, fun q hq _ => ?_⟩ hrun
    · obtain ⟨hstaged, hle, hall⟩ := h
      cases ht with
      | aside | endedOutside | appended | announced | received | performed | brokeDown | began | asked
        | failed | closed | finished | woke | lapsed | posted | dropped => exact ⟨hle, hall⟩
      | left =>
        refine ⟨hle, fun q hq hk => ?_⟩
        obtain ⟨q₀, hq₀, rfl⟩ := Option.map_eq_some_iff.1 hq
        exact hall q₀ hq₀ hk
      | @handled m =>
        cases Session.succession_update hstaged.session m with
        | stayed none seq monitor =>
          refine ⟨Nat.le_trans hle (Nat.le_of_eq seq.symm), fun q hq hk => ?_⟩
          obtain ⟨q₀, hq₀, hsame, hkept, -⟩ := monitor q hq
          exact hkept (hall q₀ hq₀ (hsame.symm.trans hk))
        | began one seq monitor number =>
          -- the new activation has a higher number
          refine ⟨by rw [seq]; omega, fun q hq hk => ?_⟩
          cases monitor.symm.trans hq
          rw [number] at hk
          omega
    · exact Nat.le_of_eq (hs.session.seq r hr)
    · cases hr.symm.trans hq
      exact hc
  exact hall.2.2 r' hr' hseq.symm

/-! ## The theorem -/

/-- How the activations of a run are kept apart, in a state of it: `as` were taken, and the losses of
    those with the numbers `told` were told. -/
structure Isolated (as : List Activation) (told : List Nat) (l : Loop) : Prop where
  /-- Activations are numbered in order, and the monitor that is up is that of the newest. -/
  count : l.session.activationSeq = as.length
  newest : ∀ r, l.session.monitor = some r → r.seq = as.length
  /-- What is carried out for an activation is carried out while its monitor is up. -/
  started : ∀ e ∈ l.effects, ∀ k, e.seq? = some k → ∃ r, l.session.monitor = some r ∧ r.seq = k
  /-- The waits for a data plane wait for that of the activation whose number they carry. -/
  own : ∀ t ∈ l.waits, t.awaited.IsOf as
  /-- A message of an activation that is not live changes nothing and asks for nothing. -/
  stale : ∀ m k, m.seq? = some k →
    l.session.terminated = true ∨ (∀ r, l.session.monitor = some r → r.seq ≠ k) →
    l.session.update m = (l.session, .none) ∧
      ∀ rest l', l.queue = m :: rest → l.step .handle = some l' → l' = { l with queue := rest }
  /-- The loss of an activation is told once at most. -/
  once : told.Nodup
  /-- It is told only while that activation is up, and when its own context is over. -/
  cause : ∀ k ∈ l.core.losses .handle,
    (∃ r, l.session.monitor = some r ∧ r.seq = k) ∧
      ∃ a, numbered as k = some a ∧ a.context.cancelled l.hasEnded = true
  /-- What is connected has nothing to wait for, or has been given its own signal. -/
  connected : ∀ r, l.session.monitor = some r → r.connected = true →
    ∃ a, numbered as r.seq = some a ∧ ∀ signal, a.ready = some signal → signal ∈ l.world.signals

/-- A message that is out of date leaves the queue, and that is all. -/
theorem handle_of_stale {m : Message} {rest : List Message}
    (hstale : l.session.update m = (l.session, .none)) (hq : l.queue = m :: rest)
    (hs : l.step .handle = some l') : l' = { l with queue := rest } := by
  simp only [step, handleNext] at hs
  split at hs
  · rename_i hready
    obtain ⟨-, heffects⟩ := isIdle_iff.1 (Bool.and_eq_true_iff.1 hready).1
    rw [hq] at hs
    simp only [hstale, Command.flatten_none] at hs
    cases hs
    rw [← heffects]
  · cases hs

/-- **Activations are kept apart.**  In every state of every run, in whatever order the waits of all
    activations wake, lapse and post, the activations are isolated from one another; and one that is
    connected in an earlier state of the run stays so for as long as its monitor is up. -/
theorem activations_isolated (config : Config) (prefs : Preferences) (logs : LogSource)
    (size : TerminalSize) (capacity : Nat) (store : PreferencesStore) (world : World)
    {moves : List Move} {l : Loop} (hp : ∀ m ∈ moves, m.isProper)
    (hrun : (start (Session.make config prefs logs size) capacity store world).run moves = some l) :
    let first := start (Session.make config prefs logs size) capacity store world
    l.Isolated (first.activations moves) (first.lost moves) ∧
      ∀ before after l₁ r₁ r, moves = before ++ after → first.run before = some l₁ →
        l₁.session.monitor = some r₁ → l.session.monitor = some r → r₁.seq = r.seq →
        r₁.connected = true → r.connected = true := by
  intro first
  -- the account of the whole run has it all in terms of the core
  have h : l.core.Accounted (first.activations moves) (first.lost moves) l.world.signals :=
    accounted_run hp hrun
  have hended : l.core.hasEnded = l.hasEnded := funext l.hasEnded_core
  refine ⟨?_, fun before after l₁ r₁ r hsplit hbefore hr₁ hr hseq hc => ?_⟩
  · constructor
    case count => exact h.count
    case newest => exact fun r hr => h.live hr
    case started => exact h.started
    case own => exact h.waits
    case stale =>
      intro m k hk hstale
      have hupdate := Session.update_of_stale h.staged.session hk hstale
      exact ⟨hupdate, fun rest l' hq hs => handle_of_stale hupdate hq hs⟩
    case once => exact h.once
    case cause =>
      intro k hk
      obtain ⟨hover, hup⟩ := h.cause hk
      rw [hended] at hover
      exact ⟨hup, hover⟩
    case connected => exact h.connected
  · -- an earlier state is the end of a run of its own
    have hp₁ : ∀ m ∈ before, m.isProper := fun m hm => hp m (hsplit ▸ List.mem_append_left _ hm)
    have hp₂ : ∀ m ∈ after, m.isProper := fun m hm => hp m (hsplit ▸ List.mem_append_right _ hm)
    have hafter : l₁.run after = some l := by
      rw [hsplit, run_append, hbefore] at hrun
      exact hrun
    exact connected_run hp₂ (accounted_run hp₁ hbefore).staged hafter hr₁ hr hseq hc

/-! ## A run -/

/-- A first data plane comes up late: its context is over and its signal is given, and both are known to
    their waits, before the loss is told and a second data plane takes its place. -/
def succession : List Move :=
  press .enter ++
    [.perform, .receive (.activate ⟨.tun, Token.ofScope (.outside 0), some 0, 0⟩), .handle, .perform,
      .perform, .perform, .perform, .endScope 0, .signal 0, .wake 0, .wake 1, .post 0, .handle, .handle,
      .perform, .receive (.activate ⟨.tun, Token.ofScope (.outside 1), some 1, 0⟩), .handle, .perform,
      .perform, .perform, .perform, .post 0, .handle]

/-- The news that the first data plane is there comes when the second one shows, and does not count for
    it. -/
theorem activations_isolated_in_succession :
    ∃ l r, (∀ m ∈ succession, m.isProper) ∧ specimen.run succession = some l ∧
      specimen.lost succession = [1] ∧ l.queue = [.result 1 .ready] ∧ l.session.monitor = some r ∧
      r.seq = 2 ∧ r.connected = false ∧
      l.session.update (.result 1 .ready) = (l.session, .none) := by
  have hp : ∀ m ∈ succession, m.isProper := by decide
  obtain ⟨l, r, hl, hr, hend⟩ := exists_of_run specimen succession
    (fun l r => l.queue = [.result 1 .ready] && r.seq = 2 && !r.connected) (by decide +kernel)
  simp only [Bool.and_eq_true, Bool.not_eq_true', decide_eq_true_eq] at hend
  obtain ⟨⟨hqueue, hseq⟩, hconnected⟩ := hend
  have hlost : specimen.lost succession = [1] := by decide +kernel
  have hisolated := (activations_isolated _ _ _ _ _ _ _ hp hl).1
  refine ⟨l, r, hp, hl, hlost, hqueue, hr, hseq, hconnected, ?_⟩
  refine (hisolated.stale (.result 1 .ready) 1 rfl (Or.inr fun q hq => ?_)).1
  cases hr.symm.trans hq
  rw [hseq]
  decide

end Loop
end TunnelBoard
