import TunnelBoard.Session.Event
/-
  What becomes of the events that are pushed into a bounded buffer.

  With room for at least one event, a push ends after two tries at most: when a terminal event does
  not fit, the oldest one is taken out, and then it does (`pushWithin_eq`).  So a push is one step,
  and there are three cases: the event is added; there is no room, and an ordinary event is given up;
  there is no room, and a terminal event takes the place of the oldest.

  In none of them is anything put in front of another event or back into the buffer.  So whatever is
  pushed and received in whichever order, what has been received and what is still in the buffer is
  what was pushed, in that order, with some events left out (`Faithful`).  The invariant speaks of
  what has been received and of the buffer together, since a receive only moves the border between the
  two.
-/

namespace TunnelBoard

namespace EventQueue

variable {q : EventQueue} {e : Event}

/-! ## One push -/

/-- With room the event comes to be the newest one, and nothing is reported. -/
theorem push_of_room (h : q.events.length < q.capacity) (e : Event) :
    q.push e = ({ q with events := q.events ++ [e] }, []) :=
  if_pos h

/-- Without room an ordinary event is given up, which is reported. -/
theorem push_of_full (h : ¬ q.events.length < q.capacity) (hordinary : e.isTerminal = false) :
    q.push e = (q, [dropRecord e]) := by
  have hnot : ¬ e.isTerminal = true := Bool.eq_false_iff.1 hordinary
  rw [push, if_neg h, if_neg hnot]

/-- A terminal event takes the place of the oldest one, which is reported as well. -/
theorem push_of_full_of_terminal (h : ¬ q.events.length < q.capacity) (hterminal : e.isTerminal = true) :
    q.push e = ({ q with events := q.events.drop 1 ++ [e] }, (q.events.take 1).map evictionRecord) := by
  rw [push, if_neg h, if_pos hterminal]

/-- An ordinary event is added, or dropped. -/
theorem events_push (q : EventQueue) {e : Event} (h : e.isTerminal = false) :
    (q.push e).1.events = q.events ++ [e] ∨ (q.push e).1.events = q.events := by
  by_cases hroom : q.events.length < q.capacity
  · exact Or.inl (by rw [push_of_room hroom])
  · exact Or.inr (by rw [push_of_full hroom h])

/-- A terminal event is added, at the cost of the oldest one if need be. -/
theorem events_push_of_terminal (q : EventQueue) {e : Event} (h : e.isTerminal = true) :
    ∃ kept, (q.push e).1.events = kept ++ [e] ∧ ∀ x ∈ kept, x ∈ q.events := by
  by_cases hroom : q.events.length < q.capacity
  · exact ⟨q.events, by rw [push_of_room hroom], fun x hx => hx⟩
  · exact ⟨q.events.drop 1, by rw [push_of_full_of_terminal hroom h], fun x hx => List.mem_of_mem_drop hx⟩

/-- Whatever there is no room for, what is in the buffer was there or comes in. -/
theorem sublist_push (q : EventQueue) (e : Event) : (q.push e).1.events.Sublist (q.events ++ [e]) := by
  unfold push
  split
  · exact List.Sublist.refl _
  · split
    · exact (List.drop_sublist 1 q.events).append (List.Sublist.refl [e])
    · exact List.sublist_append_left q.events [e]

/-- The room stays the same. -/
theorem capacity_push (q : EventQueue) (e : Event) : (q.push e).1.capacity = q.capacity := by
  unfold push
  split
  · rfl
  · split
    · rfl
    · rfl

/-- A push leaves no more in the buffer than there is room for. -/
theorem length_push_le (hroom : 1 ≤ q.capacity) (h : q.events.length ≤ q.capacity) (e : Event) :
    (q.push e).1.events.length ≤ q.capacity := by
  unfold push
  split
  · rw [List.length_append, List.length_singleton]
    omega
  · split
    · rw [List.length_append, List.length_drop, List.length_singleton]
      omega
    · exact h

/-! ## The tries of a push -/

/-- With room one try is enough. -/
theorem pushWithin_of_room (h : q.events.length < q.capacity) (tries : Nat) (e : Event) :
    q.pushWithin (tries + 1) e = some (q.push e) := by
  rw [pushWithin, trySend, if_pos h, push_of_room h]

/-- **A push ends**, after two tries at most. -/
theorem pushWithin_eq (hroom : 1 ≤ q.capacity) (h : q.events.length ≤ q.capacity) {tries : Nat}
    (htries : 2 ≤ tries) (e : Event) : q.pushWithin tries e = some (q.push e) := by
  obtain ⟨more, rfl⟩ := Nat.exists_eq_add_of_le' htries
  by_cases hless : q.events.length < q.capacity
  · exact pushWithin_of_room hless (more + 1) e
  · cases hterminal : e.isTerminal with
    | false =>
      have hnot : ¬ e.isTerminal = true := Bool.eq_false_iff.1 hterminal
      rw [pushWithin, trySend, if_neg hless, push_of_full hless hterminal]
      exact if_neg hnot
    | true =>
      rw [pushWithin, trySend, if_neg hless, push_of_full_of_terminal hless hterminal]
      dsimp only
      rw [if_pos hterminal]
      -- the buffer is full, so it holds an oldest event; without it there is room for the next try
      cases hevents : q.events with
      | nil =>
        rw [hevents, List.length_nil] at hless
        omega
      | cons old rest =>
        have hnext : ({ q with events := rest } : EventQueue).events.length <
            ({ q with events := rest } : EventQueue).capacity := by
          rw [hevents, List.length_cons] at h
          exact h
        rw [take, hevents]
        dsimp only
        rw [pushWithin_of_room hnext more e, push_of_room hnext]
        rfl

end EventQueue

/-! ## Histories

What was received and what is in the buffer stand one behind the other, and together they are some of
what was pushed, in that order.  A push adds to the end and may give up an event of the buffer; to
receive moves the boundary between the two. -/

namespace BufferHistory

variable {h : BufferHistory} {capacity : Nat}

/-- Whether a buffer keeps to its capacity and to the order of what was pushed. -/
structure Faithful (capacity : Nat) (h : BufferHistory) : Prop where
  room : h.queue.capacity = capacity
  length_le : h.queue.events.length ≤ capacity
  sublist : (h.received ++ h.queue.events).Sublist h.pushed

/-- A push adds to what was pushed and gives up events of the buffer at most. -/
theorem Faithful.push (hf : Faithful capacity h) (hroom : 1 ≤ capacity) (e : Event) :
    Faithful capacity (h.step (.push e)) := by
  obtain ⟨rfl, hlength, hsublist⟩ := hf
  refine ⟨h.queue.capacity_push e, EventQueue.length_push_le hroom hlength e, ?_⟩
  have hpush := (List.Sublist.refl h.received).append (h.queue.sublist_push e)
  rw [← List.append_assoc] at hpush
  exact hpush.trans (hsublist.append (List.Sublist.refl [e]))

/-- To receive moves the oldest event over, if there is one. -/
theorem Faithful.receive (hf : Faithful capacity h) : Faithful capacity (h.step .receive) := by
  obtain ⟨hcapacity, hlength, hsublist⟩ := hf
  unfold step EventQueue.take
  cases hevents : h.queue.events with
  | nil =>
    refine ⟨hcapacity, hlength, ?_⟩
    dsimp only
    rw [Option.toList_none, List.append_nil]
    exact hsublist
  | cons e rest =>
    rw [hevents] at hlength hsublist
    refine ⟨hcapacity, Nat.le_of_succ_le hlength, ?_⟩
    dsimp only
    rw [Option.toList_some, List.append_assoc, List.singleton_append]
    exact hsublist

/-- The history is faithful after any pushes and receives. -/
theorem faithful_after (hroom : 1 ≤ capacity) (steps : List BufferStep) :
    Faithful capacity (after capacity steps) := by
  have hfold : ∀ h : BufferHistory, Faithful capacity h → Faithful capacity (steps.foldl step h) := by
    induction steps with
    | nil => exact fun h hf => hf
    | cons s steps ih =>
      intro h hf
      cases s with
      | push e => exact ih _ (hf.push hroom e)
      | receive => exact ih _ hf.receive
  exact hfold _ ⟨rfl, Nat.zero_le _, List.Sublist.refl _⟩

/-- **A buffer keeps the order and the end**: after any pushes and receives, no more events are in the
    buffer than there is room for, and those received and those in it were pushed in that order.  A push
    from there on ends after two tries at most.  An ordinary event is given up exactly if the buffer is
    full.  A terminal event comes to be the newest one, and costs nothing if there is room, and otherwise
    the oldest one. -/
theorem keeps_order_and_ending (capacity : Nat) (hroom : 1 ≤ capacity) (steps : List BufferStep) :
    let h := after capacity steps
    let buffered := h.queue.events
    buffered.length ≤ capacity ∧ (h.received ++ buffered).Sublist h.pushed ∧
      ∀ e : Event,
        (∀ tries, 2 ≤ tries → h.queue.pushWithin tries e = some (h.queue.push e)) ∧
          (buffered.length < capacity → (h.queue.push e).1.events = buffered ++ [e]) ∧
          (buffered.length = capacity → e.isTerminal = false → (h.queue.push e).1.events = buffered) ∧
          (buffered.length = capacity → e.isTerminal = true →
            ∃ oldest others, buffered = oldest :: others ∧
              (h.queue.push e).1.events = others ++ [e]) := by
  intro h buffered
  have hf : Faithful capacity h := faithful_after hroom steps
  have hcapacity := hf.room
  have hnot : buffered.length = capacity → ¬ buffered.length < h.queue.capacity := by
    intro hfull
    rw [hcapacity]
    exact Nat.not_lt.2 (Nat.le_of_eq hfull.symm)
  refine ⟨hf.length_le, hf.sublist, fun e => ⟨fun tries htries => ?_, fun hless => ?_, fun hfull ho => ?_,
    fun hfull ht => ?_⟩⟩
  · have hlength : h.queue.events.length ≤ h.queue.capacity := by
      rw [hcapacity]
      exact hf.length_le
    exact EventQueue.pushWithin_eq (hcapacity ▸ hroom) hlength htries e
  · rw [EventQueue.push_of_room (hcapacity ▸ hless)]
  · rw [EventQueue.push_of_full (hnot hfull) ho]
  · -- there is room for one at least, so a full buffer has an oldest event
    cases hevents : buffered with
    | nil =>
      rw [hevents, List.length_nil] at hfull
      omega
    | cons oldest others =>
      refine ⟨oldest, others, rfl, ?_⟩
      rw [EventQueue.push_of_full_of_terminal (hnot hfull) ht]
      exact congrArg (·.drop 1 ++ [e]) hevents

/-- A buffer for two events, which is read once, is full again when the session ends. -/
theorem keeps_order_and_ending_of_two :
    let steps : List BufferStep := [.push (.modeSelected .tun), .push .runtimeDisconnected, .receive,
      .push .reconfigure, .push .reconfigure]
    let h := after 2 steps
    1 ≤ 2 ∧ h.received = [.modeSelected .tun] ∧ h.queue.events = [.runtimeDisconnected, .reconfigure] ∧
      (h.received ++ h.queue.events).Sublist h.pushed ∧
      (∃ oldest others, h.queue.events = oldest :: others ∧
        (h.queue.push .exit).1.events = others ++ [.exit]) ∧
      h.queue.pushWithin 2 .exit = some (h.queue.push .exit) := by
  intro steps h
  obtain ⟨-, hsublist, hpush⟩ := keeps_order_and_ending 2 (by decide) steps
  obtain ⟨hends, -, -, hterminal⟩ := hpush .exit
  exact ⟨by decide, by decide, by decide, hsublist, hterminal (by decide) rfl, hends 2 (Nat.le_refl 2)⟩

end BufferHistory
end TunnelBoard
