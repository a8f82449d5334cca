import TunnelBoard.Proofs.Loop.Ending
/-
  The outcome of a session is met by one call.

  A call takes events one by one until one of them answers it, so it matters where the last event of a
  session is: still to be told, in the buffer behind the ordinary ones, or taken by a call.
  `Dealings.Ahead` and `Dealings.Outcome` are these three situations, each with what it means for the
  calls that were made until then, and no act leads anywhere but from one to the next
  (`Dealings.InOrder`).

  Four kinds of act are to be looked at.  A move of the loop may tell the end, which then waits in the
  buffer (`inOrder_move`); a call that begins has taken nothing yet (`inOrder_begin`); room is made
  only for an end that has not been told (`inOrder_makeRoom`); and a step of the call under way takes
  an event or does not (`inOrder_goOn`).  What such a step can do is said once, in `CallStep`, and
  what matters of it here is shorter still, `Takes`.

  Being delivered once means little if a call can hang: whatever is left when the end has been told,
  the loop and the call can finish by themselves (`Dealings.exists_answered`).  The loop needs three
  moves at most, and the call one step for each event that is left and one for its message
  (`stepsLeft`).
-/

namespace TunnelBoard

/-- Whether an answer tells of the last event of a session: what it was, or, to a call that shows a
    failure, that the operator has seen it. -/
def Call.Tells (c : Call) (e : Event) (a : Answer) : Prop :=
  (∃ cause, e.ending? = some cause ∧ a = .refused cause) ∨
    (e = .exit ∧ (∃ report, c = .showFatal report) ∧ a = .done)

/-! ## Steps of a call

What a call does with its next step is listed once (`CallStep`): it hands over its message, takes an
event, or finds that there will be none.  What an event means to it is a list of its own
(`Call.Hears`), by the kind of call and the kind of event. -/

/-- What an event does to a call that takes it. -/
inductive Call.Hears (c : Call) (stage : CallStage) (e : Event) : CallStage → Prop where
  /-- The event is of no use to the call. -/
  | ignored (ordinary : e.isTerminal = false) : Hears c stage e stage
  | answered {a : Answer} (ordinary : e.isTerminal = false) (useful : a ≠ .refused .sessionClosed) :
      Hears c stage e (.answered a)
  | told {a : Answer} (terminal : e.isTerminal = true) (tells : c.Tells e a) :
      Hears c stage e (.answered a)

/-- What a step of a call can do. -/
inductive CallStep (l : Loop) (c : Call) : CallStage → CallStage → Loop → Prop where
  | sent {m : Message} {l' : Loop} (received : l.step (.receive m) = some l') :
      CallStep l c (.sending m) c.sent l'
  /-- The message is refused, for the loop has stopped. -/
  | refused {m : Message} (silent : l.isSilent = true) : CallStep l c (.sending m) .searching l
  | took {stage next : CallStage} {e : Event} {rest : List Event} {l' : Loop}
      (reads : stage.reads = true) (events : l.events.events = e :: rest)
      (hears : c.Hears stage e next) (core : l'.core = l.core) (left : l'.events.events = rest) :
      CallStep l c stage next l'
  /-- There is nothing to be taken, and there will be nothing any more. -/
  | closed {stage : CallStage} (reads : stage.reads = true) (events : l.events.events = [])
      (silent : stage = .searching ∨ l.isSilent = true) :
      CallStep l c stage (.answered (.refused .sessionClosed)) l

/-- A call that reads is answered by the events that it waits for and by the end, and by no others. -/
theorem Call.hears_reading (c : Call) (e : Event) :
    c.Hears .reading e (match c.answer? (some e) with
      | some a => .answered a
      | none => .reading) := by
  cases e with
  | modeSelected mode =>
    cases c with
    | waitMode => exact .answered rfl (fun h => nomatch h)
    | waitExit | activate | showFatal => exact .ignored rfl
  | reconfigure =>
    cases c with
    | waitExit => exact .answered rfl (fun h => nomatch h)
    | waitMode | activate | showFatal => exact .ignored rfl
  | runtimeDisconnected =>
    cases c with
    | waitExit => exact .answered rfl (fun h => nomatch h)
    | waitMode | activate | showFatal => exact .ignored rfl
  | exit =>
    cases c with
    | showFatal report => exact .told rfl (Or.inr ⟨rfl, ⟨report, rfl⟩, rfl⟩)
    | waitMode | waitExit | activate => exact .told rfl (Or.inl ⟨_, rfl, rfl⟩)
  | error cause =>
    cases c with
    | waitMode | waitExit | activate | showFatal => exact .told rfl (Or.inl ⟨_, rfl, rfl⟩)

/-- A call that has been refused looks for the end only. -/
theorem Call.hears_searching (c : Call) (e : Event) :
    c.Hears .searching e (match e.ending? with
      | some error => .answered (.refused error)
      | none => .searching) := by
  cases e with
  | modeSelected | reconfigure | runtimeDisconnected => exact .ignored rfl
  | exit | error => exact .told rfl (Or.inl ⟨_, rfl, rfl⟩)

namespace Loop

variable {l l' : Loop}

/-- A loop is silent once it has closed its queue. -/
theorem isSilent_iff : l.isSilent = true ↔ l.stage = .closed ∨ l.stage = .done := by
  unfold isSilent
  rw [Bool.or_eq_true, decide_eq_true_eq, decide_eq_true_eq]

/-- From an empty buffer nothing is taken. -/
theorem takeEvent_nil (h : l.events.events = []) : l.takeEvent = none := by
  unfold takeEvent EventQueue.take
  rw [h]

/-- From any other buffer the oldest event is taken. -/
theorem takeEvent_cons {e : Event} {rest : List Event} (h : l.events.events = e :: rest) :
    l.takeEvent = some (e, { l with events := { l.events with events := rest } }) := by
  unfold takeEvent EventQueue.take
  rw [h]

/-- A loop that refuses messages is silent. -/
theorem isSilent_of_receive {m : Message} (h : l.receive m = none) : l.isSilent = true := by
  rw [isSilent_iff]
  unfold receive at h
  split at h
  · exact nomatch h
  · exact nomatch h
  · rename_i hstage
    exact Or.inl hstage
  · rename_i hstage
    exact Or.inr hstage

/-- **What a step of a call does** is in the list. -/
theorem callStep_of_stepCall {c : Call} {stage next : CallStage}
    (h : l.stepCall c stage = some (next, l')) : CallStep l c stage next l' := by
  -- stage by stage, for each has a step of its own
  cases stage with
  | sending m =>
    simp only [stepCall] at h
    cases hreceive : l.receive m with
    | some l₁ =>
      rw [hreceive] at h
      cases h
      exact .sent hreceive
    | none =>
      rw [hreceive] at h
      cases h
      exact .refused (isSilent_of_receive hreceive)
  | reading =>
    simp only [stepCall, readFor] at h
    cases hevents : l.events.events with
    | nil =>
      rw [takeEvent_nil hevents] at h
      dsimp only at h
      split at h
      · rename_i hsilent
        have hnone : c.answer? none = some (.refused .sessionClosed) := by
          cases c with
          | waitMode | waitExit | activate | showFatal => rfl
        rw [hnone] at h
        cases h
        exact .closed rfl hevents (Or.inr hsilent)
      · exact nomatch h
    | cons e rest =>
      have hhears := c.hears_reading e
      rw [takeEvent_cons hevents] at h
      dsimp only at h
      split at h
      · rename_i a ha
        rw [ha] at hhears
        cases h
        exact .took rfl hevents hhears rfl rfl
      · rename_i ha
        rw [ha] at hhears
        cases h
        exact .took rfl hevents hhears rfl rfl
  | searching =>
    simp only [stepCall, search] at h
    cases hevents : l.events.events with
    | nil =>
      rw [takeEvent_nil hevents] at h
      cases h
      exact .closed rfl hevents (Or.inl rfl)
    | cons e rest =>
      have hhears := c.hears_searching e
      rw [takeEvent_cons hevents] at h
      dsimp only at h
      split at h
      · rename_i error herror
        rw [herror] at hhears
        cases h
        exact .took rfl hevents hhears rfl rfl
      · rename_i hnone
        rw [hnone] at hhears
        cases h
        exact .took rfl hevents hhears rfl rfl
  | answered a => exact nomatch h

end Loop

/-! ## Where the last event is -/

/-- A call that has neither met the end of the session nor come too late for it. -/
structure Exchange.IsOpen (x : Exchange) : Prop where
  taken : ∀ e ∈ x.taken, e.isTerminal = false
  stage : x.stage ≠ .answered (.refused .sessionClosed)

/-- A call that came too late: it has taken nothing, and learns nothing but that the session is closed,
    or that its data plane was taken over before the loop stopped. -/
structure Exchange.IsLate (x : Exchange) : Prop where
  taken : x.taken = []
  answer : ∀ a, x.stage = .answered a → a = .refused .sessionClosed ∨
    (a = .done ∧ (∃ b, x.call = .activate b) ∧ (x.seen = .running ∨ x.seen = .ending))

namespace Dealings

/-- The end has not been told. -/
structure Ahead (d : Dealings) : Prop where
  buffer : ∀ e ∈ d.loop.events.events, e.isTerminal = false
  taken : ∀ x ∈ d.exchanges, ∀ e ∈ x.taken, e.isTerminal = false
  going : d.loop.isSilent = false → ∀ x ∈ d.exchanges, x.stage ≠ .answered (.refused .sessionClosed)

/-- The end has been told, by the event `e`. -/
inductive Outcome (d : Dealings) (e : Event) : Prop where
  /-- It waits in the buffer, behind ordinary events, and no call knows of it. -/
  | waiting {before : List Event} (buffer : d.loop.events.events = before ++ [e])
      (ordinary : ∀ x ∈ before, x.isTerminal = false) (unmet : ∀ x ∈ d.exchanges, x.IsOpen)
  /-- One call has met it.  Those before did not know of it, and those after come too late. -/
  | met {before after : List Exchange} {x : Exchange} {earlier : List Event} {a : Answer}
      (calls : d.exchanges = before ++ x :: after) (unmet : ∀ y ∈ before, y.IsOpen)
      (taken : x.taken = earlier ++ [e]) (ordinary : ∀ y ∈ earlier, y.isTerminal = false)
      (stage : x.stage = .answered a) (tells : x.call.Tells e a)
      (empty : d.loop.events.events = []) (late : ∀ y ∈ after, y.IsLate)

/-- The order that every act keeps. -/
structure InOrder (d : Dealings) : Prop where
  staged : d.loop.core.Staged
  course : d.loop.core.Course d.told
  /-- A call hands over nothing but what may come from outside. -/
  sending : ∀ x, d.current = some x → ∀ m, x.stage = .sending m → m.isOutside = true
  searching : ∀ x, d.current = some x → x.stage = .searching → d.loop.isSilent = true
  unanswered : ∀ x, d.current = some x → ∀ a, x.stage ≠ .answered a
  ahead : (∀ e ∈ d.told, e.isTerminal = false) → d.Ahead
  outcome : ∀ e ∈ d.told, e.isTerminal = true → d.Outcome e

variable {d d' : Dealings} {e : Event}

/-- Only one terminal event is told, and it is the last. -/
theorem InOrder.told_eq (h : d.InOrder) (he : e ∈ d.told) (ht : e.isTerminal = true) :
    ∃ before, d.told = before ++ [e] ∧ ∀ x ∈ before, x.isTerminal = false := by
  cases h.course with
  | going ordinary => exact nomatch (ordinary e he).symm.trans ht
  | due ordinary => exact nomatch (ordinary e he).symm.trans ht
  | @gone before e' is terminal ordinary =>
    rw [is] at he
    rcases List.mem_append.1 he with he | he
    · exact nomatch (ordinary e he).symm.trans ht
    · cases List.mem_singleton.1 he
      exact ⟨before, is, ordinary⟩

/-- A loop that is not silent has not been so before. -/
theorem not_silent_before {l l' : Loop} (h : l.isSilent = true → l'.isSilent = true)
    (hl : l'.isSilent = false) : l.isSilent = false := by
  cases hold : l.isSilent with
  | false => rfl
  | true => exact nomatch hl.symm.trans (h hold)

/-! ## Acts

Acts other than a step of the call under way: a move of the loop, a call that begins, and room that is
made for the end.  Of each it is shown that it keeps the order, from what it does to `Ahead` and to
`Outcome`. -/

/-- Moves that tell nothing do not matter to the outcome. -/
theorem Outcome.congr (h : d.Outcome e) (hcalls : d'.exchanges = d.exchanges)
    (hevents : d'.loop.events.events = d.loop.events.events) : d'.Outcome e := by
  cases h with
  | waiting buffer ordinary unmet =>
    exact .waiting (hevents.trans buffer) ordinary (hcalls ▸ unmet)
  | met calls unmet taken ordinary stage tells empty late =>
    exact .met (hcalls.trans calls) unmet taken ordinary stage tells (hevents.trans empty) late

/-- While the end has not been told, nothing but ordinary events comes into the buffer. -/
theorem Ahead.move (h : d.Ahead) {m : Move} (hne : m ≠ .takeEvent) {l' : Loop}
    (hs : d.loop.step m = some l') (hsilent : d.loop.isSilent = true → l'.isSilent = true)
    (hordinary : ∀ e ∈ m.tells d.loop.effects, e.isTerminal = false) :
    Ahead { d with loop := l', told := d.told ++ m.tells d.loop.effects } := by
  refine ⟨fun x hx => ?_, h.taken, fun hnew => h.going (not_silent_before hsilent hnew)⟩
  have hx : x ∈ l'.events.events := hx
  rcases Loop.events_of_step hne hs with ⟨-, hevents⟩ | ⟨f, htells, hevents⟩
  · rw [hevents] at hx
    exact h.buffer x hx
  · have hf : f.isTerminal = false := hordinary f (htells ▸ List.mem_singleton_self f)
    rw [hevents] at hx
    rcases d.loop.events.events_push hf with hpush | hpush
    · rw [hpush] at hx
      rcases List.mem_append.1 hx with hx | hx
      · exact h.buffer x hx
      · exact List.mem_singleton.1 hx ▸ hf
    · rw [hpush] at hx
      exact h.buffer x hx

/-- When the end is told, it is put into the buffer, whatever has to make room for it, and no call can
    have met it yet. -/
theorem Ahead.outcome (h : d.Ahead) {told : List Event} {l' : Loop} (hterminal : e.isTerminal = true)
    (hevents : l'.events = (d.loop.events.push e).1) (hrunning : d.loop.core.stage = .running) :
    Outcome { d with loop := l', told } e := by
  obtain ⟨kept, hpush, hkept⟩ := d.loop.events.events_push_of_terminal hterminal
  have hloud : d.loop.isSilent = false := by
    have hstage : d.loop.stage = .running := hrunning
    unfold Loop.isSilent
    rw [hstage]
    rfl
  exact .waiting ((congrArg EventQueue.events hevents).trans hpush)
    (fun x hx => h.buffer x (hkept x hx)) (fun x hx => ⟨h.taken x hx, h.going hloud x hx⟩)

/-- A move of the loop, or beside it. -/
theorem inOrder_move (h : d.InOrder) {m : Move} (hm : m.isProper) (hne : m ≠ .takeEvent)
    {l' : Loop} (hs : d.loop.step m = some l') :
    InOrder { d with loop := l', told := d.told ++ m.tells d.loop.effects } := by
  have hturn := Loop.turn_of_step hm hs
  have hcourse := h.course.turn h.staged hturn
  have hsilent : d.loop.isSilent = true → l'.isSilent = true := fun hold =>
    Loop.isSilent_iff.2 (Core.silent_turn hturn (Loop.isSilent_iff.1 hold))
  refine ⟨h.staged.turn hturn, hcourse, h.sending, fun x hx hstage =>
    hsilent (h.searching x hx hstage), h.unanswered, fun hordinary => ?_, fun f hf hterminal => ?_⟩
  · have hahead := h.ahead fun x hx => hordinary x (List.mem_append_left _ hx)
    exact hahead.move hne hs hsilent fun x hx => hordinary x (List.mem_append_right _ hx)
  · rcases Loop.events_of_step hne hs with ⟨htells, hevents⟩ | ⟨g, htells, hevents⟩
    · have hf : f ∈ d.told := by simpa [htells] using hf
      exact (h.outcome f hf hterminal).congr rfl (congrArg EventQueue.events hevents)
    · -- what is told is the first terminal event, so it is this one
      obtain ⟨hrunning, hordinary⟩ := h.course.ordinary_of_tells hturn htells
      have hf : f ∈ d.told ++ m.tells d.loop.effects := hf
      rw [htells] at hf
      rcases List.mem_append.1 hf with hf | hf
      · exact nomatch (hordinary f hf).symm.trans hterminal
      · cases List.mem_singleton.1 hf
        exact (h.ahead hordinary).outcome hterminal hevents hrunning

/-- A call that begins comes behind all others. -/
theorem exchanges_begin (hnone : d.current = none) (c : Call) :
    (exchanges { d with current := some (.begin c d.loop) }) = d.exchanges ++ [.begin c d.loop] := by
  have hcalls : d.exchanges = d.past := by
    rw [exchanges, hnone]
    exact List.append_nil _
  rw [hcalls]
  rfl

/-- A call that begins has no answer yet. -/
theorem stage_begin_ne (c : Call) (l : Loop) (a : Answer) : (Exchange.begin c l).stage ≠ .answered a := by
  cases c with
  | waitMode | waitExit | activate | showFatal => exact fun h => nomatch h

/-- A call that begins has met no end, for it has taken nothing. -/
theorem isOpen_begin (c : Call) (l : Loop) : (Exchange.begin c l).IsOpen :=
  ⟨fun _ he => absurd he List.not_mem_nil, stage_begin_ne c l _⟩

/-- A call that begins when the end has been met comes too late for it. -/
theorem isLate_begin (c : Call) (l : Loop) : (Exchange.begin c l).IsLate :=
  ⟨rfl, fun a ha => absurd ha (stage_begin_ne c l a)⟩

/-- What holds of all calls so far holds of one that begins. -/
theorem Ahead.begin (h : d.Ahead) (hnone : d.current = none) (c : Call) :
    Ahead { d with current := some (.begin c d.loop) } := by
  refine ⟨h.buffer, fun x hx => ?_, fun hgoing x hx => ?_⟩
  · rw [exchanges_begin hnone] at hx
    rcases List.mem_append.1 hx with hx | hx
    · exact h.taken x hx
    · rw [List.mem_singleton.1 hx]
      exact (isOpen_begin c d.loop).taken
  · rw [exchanges_begin hnone] at hx
    rcases List.mem_append.1 hx with hx | hx
    · exact h.going hgoing x hx
    · rw [List.mem_singleton.1 hx]
      exact (isOpen_begin c d.loop).stage

/-- A call that begins is open if the end waits in the buffer, and late if another call has met it. -/
theorem Outcome.begin (h : d.Outcome e) (hnone : d.current = none) (c : Call) :
    Outcome { d with current := some (.begin c d.loop) } e := by
  cases h with
  | waiting buffer ordinary unmet =>
    refine .waiting buffer ordinary fun x hx => ?_
    rw [exchanges_begin hnone] at hx
    rcases List.mem_append.1 hx with hx | hx
    · exact unmet x hx
    · rw [List.mem_singleton.1 hx]
      exact isOpen_begin c d.loop
  | @met before after x earlier a calls unmet taken ordinary stage tells empty late =>
    have hcalls : (exchanges { d with current := some (.begin c d.loop) }) =
        before ++ x :: (after ++ [.begin c d.loop]) := by
      rw [exchanges_begin hnone, calls, List.append_assoc, List.cons_append]
    refine .met hcalls unmet taken ordinary stage tells empty fun y hy => ?_
    rcases List.mem_append.1 hy with hy | hy
    · exact late y hy
    · rw [List.mem_singleton.1 hy]
      exact isLate_begin c d.loop

/-- A call begins. -/
theorem inOrder_begin (h : d.InOrder) (hnone : d.current = none) (c : Call) :
    InOrder { d with current := some (.begin c d.loop) } := by
  refine ⟨h.staged, h.course, fun x hx m hm => ?_, fun x hx hs => ?_, fun x hx => ?_,
    fun hordinary => (h.ahead hordinary).begin hnone c,
    fun f hf hterminal => (h.outcome f hf hterminal).begin hnone c⟩
  · cases hx
    cases c with
    | waitMode | waitExit => exact nomatch hm
    | activate | showFatal =>
      cases hm
      rfl
  · cases hx
    cases c with
    | waitMode | waitExit | activate | showFatal => exact nomatch hs
  · cases hx
    exact stage_begin_ne c d.loop

/-- The loop makes room for an end that it has not told yet. -/
theorem inOrder_makeRoom (h : d.InOrder) {l' : Loop} (hs : d.loop.makeRoom = some l') :
    InOrder { d with loop := l' } := by
  unfold Loop.makeRoom at hs
  split at hs
  · rename_i hend
    have hordinary : ∀ e ∈ d.told, e.isTerminal = false := by
      obtain ⟨hrunning, hhead⟩ := Bool.and_eq_true_iff.1 hend
      -- had the end been told, it would not be the next thing to be told
      cases h.course with
      | going ordinary => exact ordinary
      | due ordinary => exact ordinary
      | gone is terminal ordinary ended rest =>
        rcases rest with ⟨heff, -⟩ | ⟨heff, hquit⟩
        · have heff : d.loop.effects = [.quit] := heff
          rw [heff] at hhead
          exact nomatch hhead
        · have heff : d.loop.effects = [] := heff
          have hquit : d.loop.quitting = true := hquit
          rw [heff, hquit] at hhead
          exact nomatch hhead
    have hahead := h.ahead hordinary
    split at hs
    · rename_i old events htake
      cases hs
      refine ⟨h.staged, h.course, h.sending, h.searching, h.unanswered, fun _ =>
        ⟨fun x hx => hahead.buffer x ?_, hahead.taken, hahead.going⟩, fun f hf hterminal =>
        nomatch (hordinary f hf).symm.trans hterminal⟩
      unfold EventQueue.take at htake
      split at htake
      · exact nomatch htake
      · rename_i hevents
        cases htake
        rw [hevents]
        exact List.mem_cons_of_mem _ hx
    · exact nomatch hs
  · exact nomatch hs

/-! ## A step of the call under way

This is the act by which the end is met.  A step takes one event or none (`Takes`), so a call that
meets the end has taken nothing but ordinary events before it, and after that the buffer is empty for
good. -/

variable {x : Exchange}

/-- To go on is to make one step of the call that is under way. -/
theorem goOn_eq_some (h : d.goOn = some d') :
    ∃ x next l', d.current = some x ∧ CallStep d.loop x.call x.stage next l' ∧
      d' = { d with loop := l' }.file (x.advance next d.loop l') := by
  obtain ⟨x, hx, h⟩ := Option.bind_eq_some_iff.1 h
  obtain ⟨⟨next, l'⟩, hstep, rfl⟩ := Option.map_eq_some_iff.1 h
  exact ⟨x, next, l', hx, Loop.callStep_of_stepCall hstep, rfl⟩

/-- To put a call where it belongs changes neither the loop nor what it told, and the call stays the
    last one. -/
theorem file_frame (d : Dealings) (x : Exchange) :
    (d.file x).loop = d.loop ∧ (d.file x).told = d.told ∧ (d.file x).exchanges = d.past ++ [x] := by
  unfold file
  split
  · exact ⟨rfl, rfl, List.append_nil _⟩
  · exact ⟨rfl, rfl, rfl⟩

/-- A call that is under way afterwards is this one, and it has no answer yet. -/
theorem current_file {y : Exchange} (h : (d.file x).current = some y) :
    y = x ∧ ∀ a, x.stage ≠ .answered a := by
  unfold file at h
  split at h
  · exact nomatch h
  · rename_i hopen
    cases h
    exact ⟨rfl, hopen⟩

/-- A call that is not the one that was met comes after it. -/
theorem eq_append_of_ne {past before after : List Exchange} {x y : Exchange}
    (h : past ++ [x] = before ++ y :: after) (hne : x ≠ y) :
    ∃ between, after = between ++ [x] ∧ past = before ++ y :: between := by
  rcases List.eq_nil_or_concat after with rfl | ⟨between, z, rfl⟩
  · obtain ⟨-, hlast⟩ := List.append_inj' h rfl
    exact absurd (List.cons.inj hlast).1 hne
  · have hsplit : past ++ [x] = (before ++ y :: between) ++ [z] := by
      rw [h]
      simp
    obtain ⟨hpast, hlast⟩ := List.append_inj' hsplit rfl
    cases hlast
    exact ⟨between, by simp, hpast⟩

/-- What a step of a call takes from the buffer, and adds to the call. -/
inductive Takes (d : Dealings) (x : Exchange) (next : CallStage) (l' : Loop) : Prop where
  | nothing (taken : (x.advance next d.loop l').taken = x.taken)
      (events : l'.events.events = d.loop.events.events)
      (useful : next ≠ .answered (.refused .sessionClosed) ∨
        (d.loop.events.events = [] ∧ d.loop.isSilent = true))
      (late : ∀ a, next = .answered a → a = .refused .sessionClosed ∨
        (a = .done ∧ (∃ b, x.call = .activate b) ∧ (l'.stage = .running ∨ l'.stage = .ending)))
      (onward : (∀ a, next ≠ .answered a) → x.stage.reads = false ∧ next.reads = true)
  | one {e : Event} (taken : (x.advance next d.loop l').taken = x.taken ++ [e])
      (events : d.loop.events.events = e :: l'.events.events) (hears : x.call.Hears x.stage e next)

/-- A message that the loop lets in leaves the buffer alone, and the loop goes on for now. -/
theorem frame_of_received {l l' : Loop} {m : Message} (hm : m.isOutside = true)
    (h : l.step (.receive m) = some l') :
    l'.events = l.events ∧ (l'.stage = .running ∨ l'.stage = .ending) := by
  constructor
  · have hother : Move.receive m ≠ .takeEvent := fun heq => nomatch heq
    rcases Loop.events_of_step hother h with ⟨-, hevents⟩ | ⟨e, htells, -⟩
    · exact hevents
    · exact nomatch htells
  · have hproper : (Move.receive m).isProper = true := hm
    have hturn := Loop.turn_of_step hproper h
    have hstage : l'.stage = l'.core.stage := rfl
    rw [hstage]
    generalize l'.core = c' at hturn
    cases hturn with
    | aside aside => exact nomatch aside
    | received outside stage => exact stage

/-- Every step of a call takes one event from the buffer, or none. -/
theorem takes_of_callStep (h : d.InOrder) (hx : d.current = some x) {next : CallStage} {l' : Loop}
    (hstep : CallStep d.loop x.call x.stage next l') : d.Takes x next l' := by
  obtain ⟨call, stage, taken, seen⟩ := x
  cases hstep with
  -- to hand in a message takes no event
  | @sent m l' received =>
    obtain ⟨hevents, hopen⟩ := frame_of_received (h.sending _ hx m rfl) received
    refine .nothing (List.append_nil _) (congrArg EventQueue.events hevents) (Or.inl ?_) ?_ ?_
    · cases call with
      | waitMode | waitExit | activate | showFatal => exact fun hs => nomatch hs
    · intro a ha
      cases call with
      | activate b =>
        cases ha
        exact Or.inr ⟨rfl, ⟨b, rfl⟩, hopen⟩
      | waitMode | waitExit | showFatal => exact nomatch ha
    · intro hnone
      cases call with
      | activate => exact absurd rfl (hnone _)
      | waitMode | waitExit | showFatal => exact ⟨rfl, rfl⟩
  | refused =>
    exact .nothing (List.append_nil _) rfl (Or.inl fun hs => nomatch hs) (fun a ha => nomatch ha)
      fun _ => ⟨rfl, rfl⟩
  -- one event is taken, whatever it means to the call
  | took reads events hears core left =>
    refine .one ?_ (by rw [events, left]) hears
    have reads : stage.reads = true := reads
    simp only [Exchange.advance, reads, events]
    rfl
  -- there are no events, and there will be none
  | closed reads events silent =>
    have hsilent : d.loop.isSilent = true := by
      rcases silent with hstage | hsilent
      · exact h.searching _ hx hstage
      · exact hsilent
    refine .nothing ?_ rfl (Or.inr ⟨events, hsilent⟩) (fun a ha => Or.inl ?_) fun hnone =>
      absurd rfl (hnone _)
    · have reads : stage.reads = true := reads
      simp only [Exchange.advance, reads, events]
      exact List.append_nil _
    · cases ha
      rfl

/-- A step of a call keeps the loop on its course. -/
theorem course_of_callStep (h : d.InOrder) (hx : d.current = some x) {next : CallStage} {l' : Loop}
    (hstep : CallStep d.loop x.call x.stage next l') :
    l'.core.Staged ∧ l'.core.Course d.told ∧ (d.loop.isSilent = true → l'.isSilent = true) := by
  have hsame : l'.core = d.loop.core →
      l'.core.Staged ∧ l'.core.Course d.told ∧ (d.loop.isSilent = true → l'.isSilent = true) := by
    intro hcore
    rw [hcore]
    refine ⟨h.staged, h.course, fun hsilent => ?_⟩
    have hstage : l'.stage = d.loop.stage := congrArg Core.stage hcore
    rw [Loop.isSilent_iff, hstage]
    exact Loop.isSilent_iff.1 hsilent
  obtain ⟨call, stage, taken, seen⟩ := x
  cases hstep with
  | @sent m l' received =>
    -- only a message that is handed in is a move of the core
    have hproper : (Move.receive m).isProper = true := h.sending _ hx m rfl
    have hturn := Loop.turn_of_step hproper received
    have hcourse := h.course.turn h.staged hturn
    have hnone : (Move.receive m).tells d.loop.core.effects = [] := rfl
    rw [hnone, List.append_nil] at hcourse
    exact ⟨h.staged.turn hturn, hcourse, fun hsilent =>
      Loop.isSilent_iff.2 (Core.silent_turn hturn (Loop.isSilent_iff.1 hsilent))⟩
  | refused | closed => exact hsame rfl
  | took reads events hears core => exact hsame core

/-- What a step may lead to: nothing is handed over twice, and a search is for a silent loop. -/
theorem next_of_callStep (h : d.InOrder) (hx : d.current = some x) {next : CallStage} {l' : Loop}
    (hstep : CallStep d.loop x.call x.stage next l') :
    (∀ m, next ≠ .sending m) ∧ (next = .searching → d.loop.isSilent = true) := by
  obtain ⟨call, stage, taken, seen⟩ := x
  cases hstep with
  | sent =>
    cases call with
    | waitMode | waitExit | activate | showFatal =>
      exact ⟨fun m hm => (nomatch hm), fun hs => nomatch hs⟩
  | refused silent => exact ⟨fun m hm => (nomatch hm), fun _ => silent⟩
  | took reads events hears =>
    cases hears with
    | ignored =>
      -- an event that means nothing to the call leaves it at its stage, which is one that reads
      refine ⟨fun m hm => ?_, fun hs => h.searching _ hx hs⟩
      have hm : stage = .sending m := hm
      have reads : stage.reads = true := reads
      rw [hm] at reads
      exact nomatch reads
    | answered | told => exact ⟨fun m hm => (nomatch hm), fun hs => nomatch hs⟩
  | closed => exact ⟨fun m hm => (nomatch hm), fun hs => nomatch hs⟩

/-- While the end has not been told, a call takes nothing but ordinary events. -/
theorem Ahead.goOn (h : d.Ahead) (hx : d.current = some x) {next : CallStage} {l' : Loop}
    (htakes : d.Takes x next l') (hsilent : d.loop.isSilent = true → l'.isSilent = true)
    (hloop : d'.loop = l') (hcalls : d'.exchanges = d.past ++ [x.advance next d.loop l']) :
    d'.Ahead := by
  have hold : d.exchanges = d.past ++ [x] := by rw [exchanges, hx]; rfl
  have hpast : ∀ y ∈ d.past, y ∈ d.exchanges := fun y hy => hold ▸ List.mem_append_left _ hy
  have hmem : x ∈ d.exchanges := hold ▸ List.mem_append_right _ (List.mem_singleton_self x)
  have hstage : (x.advance next d.loop l').stage = next := rfl
  cases htakes with
  -- the buffer is as it was, and so is what the call has taken
  | nothing taken events useful =>
    refine ⟨fun e he => ?_, fun y hy => ?_, fun hloud y hy => ?_⟩
    · rw [hloop, events] at he
      exact h.buffer e he
    · rw [hcalls] at hy
      rcases List.mem_append.1 hy with hy | hy
      · exact h.taken y (hpast y hy)
      · rw [List.mem_singleton.1 hy, taken]
        exact h.taken x hmem
    · rw [hloop] at hloud
      have hloud := not_silent_before hsilent hloud
      rw [hcalls] at hy
      rcases List.mem_append.1 hy with hy | hy
      · exact h.going hloud y (hpast y hy)
      · rw [List.mem_singleton.1 hy, hstage]
        rcases useful with useful | ⟨-, hquiet⟩
        · exact useful
        · exact nomatch hloud.symm.trans hquiet
  -- the event that is taken is an ordinary one
  | @one e taken events hears =>
    have he : e.isTerminal = false := h.buffer e (events ▸ List.mem_cons_self)
    refine ⟨fun f hf => ?_, fun y hy => ?_, fun hloud y hy => ?_⟩
    · rw [hloop] at hf
      exact h.buffer f (events ▸ List.mem_cons_of_mem _ hf)
    · rw [hcalls] at hy
      rcases List.mem_append.1 hy with hy | hy
      · exact h.taken y (hpast y hy)
      · rw [List.mem_singleton.1 hy, taken]
        intro f hf
        rcases List.mem_append.1 hf with hf | hf
        · exact h.taken x hmem f hf
        · exact List.mem_singleton.1 hf ▸ he
    · rw [hloop] at hloud
      have hloud := not_silent_before hsilent hloud
      rw [hcalls] at hy
      rcases List.mem_append.1 hy with hy | hy
      · exact h.going hloud y (hpast y hy)
      · rw [List.mem_singleton.1 hy, hstage]
        cases hears with
        | ignored => exact h.going hloud x hmem
        | answered ordinary useful => exact fun ha => useful (CallStage.answered.inj ha)
        | told terminal => exact nomatch he.symm.trans terminal

/-- When the end has been told, a call takes ordinary events until it meets the end, or comes too
    late. -/
theorem Outcome.goOn (h : d.Outcome e) (hterminal : e.isTerminal = true) (hx : d.current = some x)
    (hopen : ∀ a, x.stage ≠ .answered a) {next : CallStage} {l' : Loop} (htakes : d.Takes x next l')
    (hloop : d'.loop = l') (hcalls : d'.exchanges = d.past ++ [x.advance next d.loop l']) : d'.Outcome e := by
  have hold : d.exchanges = d.past ++ [x] := by rw [exchanges, hx]; rfl
  have hpast : ∀ y ∈ d.past, y ∈ d.exchanges := fun y hy => hold ▸ List.mem_append_left _ hy
  have hmem : x ∈ d.exchanges := hold ▸ List.mem_append_right _ (List.mem_singleton_self x)
  have hstage : (x.advance next d.loop l').stage = next := rfl
  cases h with
  | @waiting before buffer ordinary unmet =>
    cases htakes with
    | nothing taken events useful =>
      refine .waiting (by rw [hloop, events, buffer]) ordinary fun y hy => ?_
      rw [hcalls] at hy
      rcases List.mem_append.1 hy with hy | hy
      · exact unmet y (hpast y hy)
      · rw [List.mem_singleton.1 hy]
        refine ⟨taken ▸ (unmet x hmem).taken, ?_⟩
        rw [hstage]
        rcases useful with useful | ⟨hempty, -⟩
        · exact useful
        · rw [buffer] at hempty
          exact absurd hempty (by simp)
    | @one f taken events hears =>
      rw [buffer] at events
      cases before with
      | nil =>
        -- this call meets the end
        obtain ⟨rfl, hempty⟩ := List.cons.inj events
        cases hears with
        | @told a terminal tells =>
          have hnone : ∀ y ∈ ([] : List Exchange), y.IsLate := fun y hy => absurd hy List.not_mem_nil
          refine .met hcalls (fun y hy => unmet y (hpast y hy)) taken (unmet x hmem).taken hstage tells ?_
            hnone
          rw [hloop]
          exact hempty.symm
        | ignored ordinary | answered ordinary => exact nomatch ordinary.symm.trans hterminal
      | cons b before =>
        obtain ⟨rfl, hrest⟩ := List.cons.inj events
        have hb : b.isTerminal = false := ordinary b List.mem_cons_self
        have hbuffer : d'.loop.events.events = before ++ [e] := by
          rw [hloop]
          exact hrest.symm
        refine .waiting hbuffer (fun y hy => ordinary y (List.mem_cons_of_mem _ hy)) fun y hy => ?_
        rw [hcalls] at hy
        rcases List.mem_append.1 hy with hy | hy
        · exact unmet y (hpast y hy)
        · rw [List.mem_singleton.1 hy]
          refine ⟨fun f hf => ?_, ?_⟩
          · rw [taken] at hf
            rcases List.mem_append.1 hf with hf | hf
            · exact (unmet x hmem).taken f hf
            · exact List.mem_singleton.1 hf ▸ hb
          · rw [hstage]
            cases hears with
            | ignored => exact (unmet x hmem).stage
            | answered ordinary useful => exact fun ha => useful (CallStage.answered.inj ha)
            | told terminal => exact nomatch hb.symm.trans terminal
  -- the call that met the end has its answer, so this is a later one
  | @met before after y earlier a calls unmet taken ordinary stage tells empty late =>
    have hne : x ≠ y := fun hxy => hopen a (hxy ▸ stage)
    obtain ⟨between, rfl, hsplit⟩ := eq_append_of_ne (hold.symm.trans calls) hne
    have hlate : x.IsLate := late x (List.mem_append_right _ (List.mem_singleton_self x))
    cases htakes with
    | one taken events => exact nomatch empty.symm.trans events
    | nothing taken' events useful answer =>
      have hnew : d'.exchanges = before ++ y :: (between ++ [x.advance next d.loop l']) := by
        rw [hcalls, hsplit]
        simp
      have hempty : d'.loop.events.events = [] := by rw [hloop, events, empty]
      refine .met hnew unmet taken ordinary stage tells hempty fun z hz => ?_
      · rcases List.mem_append.1 hz with hz | hz
        · exact late z (List.mem_append_left _ hz)
        · rw [List.mem_singleton.1 hz]
          exact ⟨taken'.trans hlate.taken, fun a ha => answer a ha⟩

/-- A step of the call under way keeps the order. -/
theorem inOrder_goOn (h : d.InOrder) (hs : d.goOn = some d') : d'.InOrder := by
  obtain ⟨x, next, l', hx, hstep, rfl⟩ := goOn_eq_some hs
  obtain ⟨hstaged, hcourse, hsilent⟩ := course_of_callStep h hx hstep
  obtain ⟨hsending, hsearching⟩ := next_of_callStep h hx hstep
  have htakes := takes_of_callStep h hx hstep
  obtain ⟨hloop, htold, hcalls⟩ := file_frame { d with loop := l' } (x.advance next d.loop l')
  refine ⟨hloop ▸ hstaged, ?_, fun y hy m hm => ?_, fun y hy hs => ?_, fun y hy => ?_, fun hord => ?_,
    fun f hf hterminal => ?_⟩
  · rw [hloop, htold]
    exact hcourse
  · obtain ⟨rfl, -⟩ := current_file hy
    exact absurd hm (hsending m)
  · obtain ⟨rfl, -⟩ := current_file hy
    rw [hloop]
    exact hsilent (hsearching hs)
  · obtain ⟨rfl, hopen⟩ := current_file hy
    exact hopen
  · rw [htold] at hord
    exact (h.ahead hord).goOn hx htakes hsilent hloop hcalls
  · rw [htold] at hf
    exact (h.outcome f hf hterminal).goOn hterminal hx (h.unanswered x hx) htakes hloop hcalls

/-! ## Every state of the dealings -/

end Dealings

/-- Whether an act lets in only what may come from outside. -/
def Act.isProper : Act → Bool
  | move m => m.isProper
  | _ => true

/-- An act of the loop that ends, or of the call under way. -/
def Act.isOwn : Act → Bool
  | move .perform | move .leave | move .close | goOn => true
  | _ => false

namespace Dealings

variable {d d' : Dealings} {e : Event} {x : Exchange}

/-- A move of the loop among the acts is one of the loop, and not one that takes an event. -/
theorem move_eq_some {m : Move} (h : d.step (.move m) = some d') :
    m ≠ .takeEvent ∧ ∃ l', d.loop.step m = some l' ∧
      d' = { d with loop := l', told := d.told ++ m.tells d.loop.effects } := by
  have hne : m ≠ .takeEvent := by
    rintro rfl
    rw [step, if_pos rfl] at h
    cases h
  rw [step, if_neg hne] at h
  obtain ⟨l', hl, rfl⟩ := Option.map_eq_some_iff.1 h
  exact ⟨hne, l', hl, rfl⟩

/-- A call begins only when no other is under way. -/
theorem begin_eq_some {c : Call} (h : d.step (.begin c) = some d') :
    d.current = none ∧ d' = { d with current := some (.begin c d.loop) } := by
  cases hcurrent : d.current with
  | some x =>
    rw [step, hcurrent] at h
    cases h
  | none =>
    rw [step, hcurrent] at h
    cases h
    exact ⟨rfl, rfl⟩

/-- Every act keeps the order. -/
theorem InOrder.step (h : d.InOrder) {a : Act} (ha : a.isProper) (hs : d.step a = some d') :
    d'.InOrder := by
  cases a with
  | move m =>
    obtain ⟨hne, l', hl, rfl⟩ := move_eq_some hs
    exact inOrder_move h ha hne hl
  | begin c =>
    obtain ⟨hnone, rfl⟩ := begin_eq_some hs
    exact inOrder_begin h hnone c
  | goOn => exact inOrder_goOn h hs
  | makeRoom =>
    obtain ⟨l', hl, rfl⟩ := Option.map_eq_some_iff.1 hs
    exact inOrder_makeRoom h hl

/-- All acts keep it. -/
theorem InOrder.run (h : d.InOrder) {acts : List Act} (ha : ∀ a ∈ acts, a.isProper)
    (hr : d.run acts = some d') : d'.InOrder := by
  induction acts generalizing d with
  | nil =>
    cases hr
    exact h
  | cons a acts ih =>
    obtain ⟨d₁, hs, hr⟩ := Option.bind_eq_some_iff.1 hr
    exact ih (h.step (ha a List.mem_cons_self) hs) (fun b hb => ha b (List.mem_cons_of_mem _ hb)) hr

/-- Dealings are in order at their start, when nothing has been told and no call made. -/
theorem inOrder_start (config : Config) (prefs : Preferences) (logs : LogSource)
    (size : TerminalSize) (capacity : Nat) (store : PreferencesStore) (world : World) :
    (start (Loop.start (Session.make config prefs logs size) capacity store world)).InOrder := by
  have hnocall : ∀ x : Exchange, x ∉ (start (Loop.start (Session.make config prefs logs size) capacity
      store world)).exchanges := fun x => List.not_mem_nil
  exact ⟨Core.staged_start .., Core.course_start .., fun x hx => (nomatch hx),
    fun x hx => (nomatch hx), fun x hx => (nomatch hx),
    fun _ => ⟨fun e he => absurd he List.not_mem_nil, fun x hx => absurd hx (hnocall x),
      fun _ x hx => absurd hx (hnocall x)⟩,
    fun e he => absurd he List.not_mem_nil⟩

/-! ## No call hangs

When the end has been told the loop can stop by itself, and a call then needs one more step for each
event that is left. -/

/-- Acts that follow others begin where those have led to. -/
theorem run_append (d : Dealings) (as bs : List Act) :
    d.run (as ++ bs) = (d.run as).bind (·.run bs) := by
  induction as generalizing d with
  | nil => rfl
  | cons a as ih =>
    show (d.step a).bind _ = ((d.step a).bind _).bind _
    rw [Option.bind_assoc]
    exact Option.bind_congr fun d' _ => ih d'

/-- The loop can make moves without regard to the calls, which stay as they are. -/
theorem run_moves {ms : List Move} {l' : Loop} (hm : .takeEvent ∉ ms) (h : d.loop.run ms = some l') :
    ∃ d', d.run (ms.map .move) = some d' ∧ d'.loop = l' ∧ d'.current = d.current ∧
      d'.past = d.past := by
  induction ms generalizing d with
  | nil =>
    cases h
    exact ⟨d, rfl, rfl, rfl, rfl⟩
  | cons m ms ih =>
    obtain ⟨l₁, hs, hrest⟩ := Option.bind_eq_some_iff.1 h
    have hne : m ≠ .takeEvent := fun heq => hm (heq ▸ List.mem_cons_self)
    obtain ⟨d', hrun, hloop, hcalls⟩ :=
      ih (d := { d with loop := l₁, told := d.told ++ m.tells d.loop.effects })
        (fun hn => hm (List.mem_cons_of_mem _ hn)) hrest
    refine ⟨d', ?_, hloop, hcalls⟩
    rw [List.map_cons, run, step, if_neg hne, hs]
    exact hrun

/-- A loop that has told the end stops by itself. -/
theorem exists_silent {l : Loop} {told : List Event} (h : l.core.Course told) (he : e ∈ told)
    (hterminal : e.isTerminal = true) :
    ∃ ms l', (∀ m ∈ ms, (Act.move m).isOwn) ∧ l.run ms = some l' ∧ l'.isSilent = true := by
  have hending : ∀ l : Loop, l.stage = .ending → ∃ l', l.run [.close] = some l' ∧
      l'.isSilent = true := by
    intro l hstage
    refine ⟨_, by rw [Loop.run, Loop.step, Loop.close, if_pos hstage]; rfl, ?_⟩
    rfl
  have hidle : ∀ l : Loop, l.stage = .running → l.effects = [] → l.quitting = true →
      ∃ l', l.run [.leave, .close] = some l' ∧ l'.isSilent = true := by
    intro l hstage heffects hquitting
    have hready : (l.isIdle && l.quitting) = true := by
      rw [Bool.and_eq_true]
      exact ⟨Loop.isIdle_iff.2 ⟨hstage, heffects⟩, hquitting⟩
    obtain ⟨l₁, hleave, hstage₁⟩ : ∃ l₁, l.step .leave = some l₁ ∧ l₁.stage = .ending := by
      rw [Loop.step, Loop.leave, if_pos hready]
      exact ⟨_, rfl, rfl⟩
    rw [Loop.run, hleave]
    exact hending l₁ hstage₁
  cases h with
  | going ordinary => cases (ordinary e he).symm.trans hterminal
  | due ordinary => cases (ordinary e he).symm.trans hterminal
  | gone is terminal ordinary ended rest =>
    -- the end has been told, so what is left is to carry out the wish to quit, to leave and to close
    rcases rest with ⟨heffects, hstage, -⟩ | ⟨heffects, hquitting⟩
    · have heffects : l.effects = [.quit] := heffects
      have hstage : l.stage = .running := hstage
      obtain ⟨l', hrun, hsilent⟩ := hidle { l with effects := [], quitting := true } hstage rfl rfl
      refine ⟨[.perform, .leave, .close], l', by decide, ?_, hsilent⟩
      have hperform : l.step .perform = some { l with effects := [], quitting := true } := by
        simp only [Loop.step, Loop.performNext, hstage, heffects]
        rfl
      rw [Loop.run, hperform]
      exact hrun
    · have heffects : l.effects = [] := heffects
      have hquitting : l.quitting = true := hquitting
      cases hstage : l.stage with
      | running =>
        obtain ⟨l', hrun, hsilent⟩ := hidle l hstage heffects hquitting
        exact ⟨[.leave, .close], l', by decide, hrun, hsilent⟩
      | ending =>
        obtain ⟨l', hrun, hsilent⟩ := hending l hstage
        exact ⟨[.close], l', by decide, hrun, hsilent⟩
      | closed => exact ⟨[], l, by decide, rfl, Loop.isSilent_iff.2 (Or.inl hstage)⟩
      | done => exact ⟨[], l, by decide, rfl, Loop.isSilent_iff.2 (Or.inr hstage)⟩

/-- When the loop is silent, a call that has no answer never waits. -/
theorem exists_stepCall {l : Loop} (h : l.isSilent = true) (c : Call) {stage : CallStage}
    (hopen : ∀ a, stage ≠ .answered a) : ∃ r, l.stepCall c stage = some r := by
  cases stage with
  | sending m =>
    unfold Loop.stepCall
    dsimp only
    split
    · exact ⟨_, rfl⟩
    · exact ⟨_, rfl⟩
  | reading =>
    -- with no event left in a silent loop, every call is refused
    have hnone : c.answer? none = some (.refused .sessionClosed) := by
      cases c with
      | waitMode | waitExit | activate | showFatal => rfl
    simp only [Loop.stepCall, Loop.readFor]
    split
    · split
      · exact ⟨_, rfl⟩
      · exact ⟨_, rfl⟩
    · rw [if_pos h, hnone]
      exact ⟨_, rfl⟩
  | searching => exact ⟨_, rfl⟩
  | answered a => exact absurd rfl (hopen a)

/-- How many steps a call may still need when the loop is silent: one for each event, and one for its
    message. -/
def stepsLeft (d : Dealings) (x : Exchange) : Nat :=
  d.loop.events.events.length + if x.stage.reads then 0 else 1

/-- When the loop is silent, a call comes to its answer by itself. -/
theorem exists_answered_of_silent (h : d.InOrder) (hsilent : d.loop.isSilent = true)
    (hx : d.current = some x) :
    ∃ n d', d.run (List.replicate n .goOn) = some d' ∧ d'.current = none := by
  -- each step either answers the call or leaves fewer of them
  generalize hn : d.stepsLeft x = n
  induction n using Nat.strongRecOn generalizing d x with
  | ind n ih =>
    obtain ⟨⟨next, l'⟩, hr⟩ := exists_stepCall hsilent x.call (h.unanswered x hx)
    have hstep := Loop.callStep_of_stepCall hr
    have hgo : d.goOn = some ({ d with loop := l' }.file (x.advance next d.loop l')) := by
      rw [goOn, hx]
      show (d.loop.stepCall x.call x.stage).map _ = _
      rw [hr]
      rfl
    have hnext := inOrder_goOn h hgo
    obtain ⟨-, -, hstays⟩ := course_of_callStep h hx hstep
    obtain ⟨hloop, -, -⟩ := file_frame { d with loop := l' } (x.advance next d.loop l')
    cases hfile : ({ d with loop := l' }.file (x.advance next d.loop l')).current with
    | none =>
      refine ⟨1, _, ?_, hfile⟩
      show (d.goOn).bind _ = _
      rw [hgo]
      rfl
    | some y =>
      obtain ⟨rfl, hopen⟩ := current_file hfile
      have hless : ({ d with loop := l' }.file (x.advance next d.loop l')).stepsLeft
          (x.advance next d.loop l') < n := by
        have hopen : ∀ a, next ≠ .answered a := hopen
        have hnextstage : (x.advance next d.loop l').stage = next := rfl
        rw [← hn, stepsLeft, stepsLeft, hloop, hnextstage]
        cases takes_of_callStep h hx hstep with
        | nothing taken events useful answer onward =>
          obtain ⟨hbefore, hafter⟩ := onward hopen
          rw [hbefore, hafter, ← events]
          exact Nat.lt_succ_self _
        | one taken events hears =>
          rw [events]
          cases hears with
          | ignored => exact Nat.add_lt_add_right (Nat.lt_succ_self _) _
          | answered | told => exact absurd rfl (hopen _)
      obtain ⟨k, d', hrun, hdone⟩ := ih _ hless hnext (hloop ▸ hstays hsilent) hfile rfl
      refine ⟨k + 1, d', ?_, hdone⟩
      rw [List.replicate_succ]
      show (d.goOn).bind _ = _
      rw [hgo]
      exact hrun

/-- When the end has been told, the loop and the call under way come to their ends by themselves. -/
theorem exists_answered (h : d.InOrder) (he : e ∈ d.told) (hterminal : e.isTerminal = true)
    (hx : d.current = some x) :
    ∃ acts d', (∀ a ∈ acts, a.isOwn) ∧ d.run acts = some d' ∧ d'.current = none := by
  obtain ⟨ms, l', hown, hmoves, hsilent⟩ := exists_silent h.course he hterminal
  have hquiet : .takeEvent ∉ ms := by
    intro hmem
    cases hown _ hmem
  -- first the loop comes to its end, then the call
  obtain ⟨d₁, hrun₁, hloop, hcurrent, -⟩ := run_moves hquiet hmoves
  have hown₁ : ∀ a ∈ ms.map Act.move, a.isOwn := by
    intro a ha
    obtain ⟨m, hm, rfl⟩ := List.mem_map.1 ha
    exact hown m hm
  have hproper : ∀ a : Act, a.isOwn → a.isProper := by
    intro a ha
    cases a with
    | move m =>
      cases m with
      | perform | leave | close => rfl
      | place | handle | failPaint | finish | wake | lapse | post | stepWriter | receive | takeEvent
        | endScope | signal | append | announce | pass => exact nomatch ha
    | begin | goOn | makeRoom => rfl
  have h₁ : d₁.InOrder := h.run (fun a ha => hproper a (hown₁ a ha)) hrun₁
  obtain ⟨n, d', hrun₂, hdone⟩ :=
    exists_answered_of_silent h₁ (hloop ▸ hsilent) (hcurrent.trans hx)
  refine ⟨ms.map .move ++ List.replicate n .goOn, d', fun a ha => ?_, ?_, hdone⟩
  · rcases List.mem_append.1 ha with ha | ha
    · exact hown₁ a ha
    · rw [List.eq_of_mem_replicate ha]
      rfl
  · rw [run_append, hrun₁]
    exact hrun₂

/-- **The outcome is met once.**  Whatever an owner calls, and whatever the loop does in the meantime:
    once a terminal event has been told,

    * it is the last one that is told, and the only one of its kind;
    * it waits in the buffer, or exactly one call has met it and answered with it, and every later call
      learns only that the session is closed, but for an activation that was handed over before the loop
      stopped;
    * a call under way is answered when the loop and the call alone go on. -/
theorem outcome_met_once (config : Config) (prefs : Preferences) (logs : LogSource)
    (size : TerminalSize) (capacity : Nat) (store : PreferencesStore) (world : World)
    {acts : List Act} {d : Dealings} {e : Event} (hp : ∀ a ∈ acts, a.isProper)
    (hrun : (start (Loop.start (Session.make config prefs logs size) capacity store world)).run acts =
      some d)
    (he : e ∈ d.told) (hterminal : e.isTerminal = true) :
    (∃ before, d.told = before ++ [e] ∧ ∀ x ∈ before, x.isTerminal = false) ∧ d.Outcome e ∧
      ∀ x, d.current = some x →
        ∃ own d', (∀ a ∈ own, a.isOwn) ∧ d.run own = some d' ∧ d'.current = none := by
  have h : d.InOrder := (inOrder_start config prefs logs size capacity store world).run hp hrun
  exact ⟨h.told_eq he hterminal, h.outcome e he hterminal, fun x hx =>
    exists_answered h he hterminal hx⟩

/-! ## Dealings to the end -/

/-- A move of the loop, for every move in a list. -/
def moves (ms : List Move) : List Act := ms.map .move

/-- The operator picks a mode and leaves.  One call learns of the mode, a second one of the end, and a
    third one comes too late. -/
def farewell : List Act :=
  [.begin .waitMode] ++ moves (Loop.press .enter ++ [.perform]) ++ [.goOn, .begin .waitExit] ++
    moves [.receive .close, .handle, .perform, .perform, .leave] ++ [.goOn, .begin .waitMode] ++
    moves [.close] ++ [.goOn]

theorem outcome_met_once_in_farewell :
    ∃ d, (∀ a ∈ farewell, a.isProper) ∧ (start Loop.specimen).run farewell = some d ∧
      .exit ∈ d.told ∧ d.Outcome .exit ∧
      d.past.map (·.stage) = [.answered (.mode .tun), .answered (.refused .userExit),
        .answered (.refused .sessionClosed)] := by
  have hp : ∀ a ∈ farewell, a.isProper := by decide
  have hend : (((start Loop.specimen).run farewell).any fun d => d.told.contains .exit &&
      d.past.map (·.stage) = [.answered (.mode .tun), .answered (.refused .userExit),
        .answered (.refused .sessionClosed)]) = true := by decide +kernel
  obtain ⟨d, hrun, hd⟩ := (Option.any_eq_true _ _).1 hend
  simp only [Bool.and_eq_true, decide_eq_true_eq, List.contains_iff_mem] at hd
  obtain ⟨hexit, hanswers⟩ := hd
  have houtcome := (outcome_met_once _ _ _ _ _ _ _ hp hrun hexit rfl).2.1
  exact ⟨d, hp, hrun, hexit, houtcome, hanswers⟩

end Dealings
end TunnelBoard
