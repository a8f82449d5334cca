import Mathlib.Data.List.GetD
import Mathlib.Data.List.Nodup
import TunnelBoard.Log.Sink
/-
  Captures that share a sink.

  A capture remembers where the sink pointed when it was enabled, and points it back there when it
  ends.  So captures are scopes: as long as each one that ends is the newest, the sink points at the
  ring of the newest one that is left, and at its first target when none is left
  (`given_back_in_turn`).  The invariant is `Stacked`: what an enabled capture remembers is the ring
  of the next older one.  A capture that is enabled a second time, or ended when it is not enabled,
  changes nothing, so any such moves may stand in between.

  The order matters.  When a capture ends under a newer one, the newer one keeps the memory of a ring
  that no longer takes lines, and gives the sink to that ring when it ends.  So the sink is wrong then
  at the latest, whichever capture was ended too early and however many others there are
  (`not_isGivenBack`).
-/

namespace TunnelBoard

variable {n : Nat}

/-! ## The order of captures -/

namespace CaptureMove

/-- The enabled captures after a move, the newest first. -/
def reorder (order : List (Fin n)) : CaptureMove n → List (Fin n)
  | enable c => if c ∈ order then order else c :: order
  | disable c | drop c => order.erase c

/-- The enabled captures after some moves, the newest first. -/
def newestFirst (moves : List (CaptureMove n)) : List (Fin n) := moves.foldl reorder []

/-- Whether a move ends no capture but the newest one. -/
def InTurn (order : List (Fin n)) : CaptureMove n → Prop
  | enable _ => True
  | disable c | drop c => c ∈ order → order.head? = some c

instance (order : List (Fin n)) : (m : CaptureMove n) → Decidable (m.InTurn order)
  | enable _ => isTrue trivial
  | disable c | drop c => inferInstanceAs (Decidable (c ∈ order → order.head? = some c))

/-- Whether none of some moves ends a capture but the newest one. -/
def AllInTurn : List (Fin n) → List (CaptureMove n) → Prop
  | _, [] => True
  | order, m :: moves => m.InTurn order ∧ AllInTurn (m.reorder order) moves

instance decidableAllInTurn : (order : List (Fin n)) → (moves : List (CaptureMove n)) →
    Decidable (AllInTurn order moves)
  | _, [] => isTrue trivial
  | order, m :: moves =>
    have := decidableAllInTurn (m.reorder order) moves
    inferInstanceAs (Decidable (m.InTurn order ∧ AllInTurn (m.reorder order) moves))

end CaptureMove

namespace Sink

open CaptureMove (reorder InTurn AllInTurn newestFirst)

variable {s : Sink} {initial found : SinkTarget} {order : List (Fin n)} {c d : Fin n}

/-- Whether the sink is where it belongs: at its first target if no capture is enabled, and at the ring of
    an enabled capture if there is one. -/
def IsGivenBack (n : Nat) (initial : SinkTarget) (s : Sink) : Prop :=
  ((∀ c : Fin n, s.enabled c = false) → s.target = initial) ∧
    ∀ c : Fin n, s.enabled c = true → ∃ d : Fin n, s.enabled d = true ∧ s.target = .buffer d

instance (n : Nat) (initial : SinkTarget) (s : Sink) : Decidable (s.IsGivenBack n initial) :=
  inferInstanceAs (Decidable (_ ∧ _))

/-! ## One capture -/

/-- What a capture remembers, if it is enabled. -/
def remembered (s : Sink) (c : Nat) : Option SinkTarget := s.previous.getD c none

/-- A capture is enabled as long as it remembers something. -/
theorem enabled_eq_isSome (s : Sink) (c : Nat) : s.enabled c = (s.remembered c).isSome := rfl

/-- A capture that has ended remembers nothing. -/
theorem remembered_disable_self (s : Sink) (c : Nat) : (s.disable c).remembered c = none := by
  unfold disable
  split
  · assumption
  · rw [remembered, List.getD_eq_getElem?_getD, List.getElem?_set, if_pos rfl]
    split
    · rfl
    · rfl

/-- What the others remember stays as it is. -/
theorem remembered_disable_of_ne (s : Sink) {c d : Nat} (h : c ≠ d) :
    (s.disable c).remembered d = s.remembered d := by
  unfold disable
  split
  · rfl
  · simp only [remembered, List.getD_eq_getElem?_getD, List.getElem?_set_ne h]

/-- When a capture ends, the others stay enabled. -/
theorem enabled_disable {c d : Nat} : (s.disable c).enabled d = true ↔ s.enabled d = true ∧ d ≠ c := by
  rw [enabled_eq_isSome, enabled_eq_isSome]
  by_cases hdc : d = c
  · rw [hdc, s.remembered_disable_self]
    exact ⟨fun h => absurd h Bool.false_ne_true, fun h => absurd rfl h.2⟩
  · rw [s.remembered_disable_of_ne (Ne.symm hdc)]
    exact ⟨fun h => ⟨h, hdc⟩, fun h => h.1⟩

/-- A capture that ends points the sink where it found it. -/
theorem target_disable {c : Nat} (h : s.remembered c = some found) : (s.disable c).target = found := by
  unfold disable
  rw [show s.previous.getD c none = some found from h]

/-- To end a capture that is not enabled changes nothing. -/
theorem disable_of_remembered_eq_none {c : Nat} (h : s.remembered c = none) : s.disable c = s := by
  unfold disable
  rw [show s.previous.getD c none = none from h]

/-- There are as many captures as before. -/
theorem length_previous_disable (s : Sink) (c : Nat) :
    (s.disable c).previous.length = s.previous.length := by
  unfold disable
  split
  · rfl
  · exact List.length_set

/-! ## Captures that end in turn

Each capture remembers what it found when it was enabled.  As long as the newest one is always the
first to end, what it puts back is just what the next older one had put there. -/

/-- Where the sink points while some captures are enabled, the newest first. -/
def onTop (initial : SinkTarget) : List (Fin n) → SinkTarget
  | [] => initial
  | c :: _ => .buffer c

/-- Whether each of the enabled captures, of which the newest stands first, found the sink at the ring of
    the next older one, and the oldest at the first target. -/
structure Stacked (initial : SinkTarget) (order : List (Fin n)) (s : Sink) : Prop where
  length : s.previous.length = n
  nodup : order.Nodup
  target : s.target = onTop initial order
  remembered : ∀ newer (c : Fin n) older, order = newer ++ c :: older →
    s.remembered c = some (onTop initial older)
  free : ∀ c : Fin n, c ∉ order → s.remembered c = none

/-- At first no capture is enabled. -/
theorem stacked_make (initial : SinkTarget) (n capacity : Nat) :
    Stacked initial ([] : List (Fin n)) (make initial n capacity) where
  length := List.length_replicate
  nodup := List.nodup_nil
  target := rfl
  remembered newer c older h := by simp at h
  free c _ := by simp [Sink.remembered, make, List.getD_eq_getElem?_getD]

namespace Stacked

/-- The captures in the order are the enabled ones. -/
theorem enabled_iff (h : Stacked initial order s) (c : Fin n) : s.enabled c = true ↔ c ∈ order := by
  rw [enabled_eq_isSome]
  by_cases hc : c ∈ order
  · obtain ⟨newer, older, horder⟩ := List.append_of_mem hc
    rw [h.remembered newer c older horder]
    exact ⟨fun _ => hc, fun _ => rfl⟩
  · rw [h.free c hc]
    exact ⟨fun hnone => absurd hnone Bool.false_ne_true, fun hmem => absurd hmem hc⟩

/-- As long as captures end in turn, the sink is where it belongs. -/
theorem isGivenBack (h : Stacked initial order s) : s.IsGivenBack n initial := by
  constructor
  · intro hnone
    have hempty : order = [] := by
      apply List.eq_nil_iff_forall_not_mem.2
      intro c hc
      have henabled := (h.enabled_iff c).2 hc
      rw [hnone c] at henabled
      exact nomatch henabled
    rw [h.target, hempty]
    rfl
  · intro c henabled
    have hc := (h.enabled_iff c).1 henabled
    cases order with
    | nil => exact absurd hc List.not_mem_nil
    -- the newest one is enabled, and the sink points at its ring
    | cons newest older => exact ⟨newest, (h.enabled_iff newest).2 List.mem_cons_self, h.target⟩

/-- A capture that is enabled comes on top, and finds the sink at the ring of the one that was there. -/
theorem enable (h : Stacked initial order s) (c : Fin n) :
    Stacked initial (reorder order (.enable c)) (s.enable c) := by
  by_cases hc : c ∈ order
  · have hsame : s.enable c = s := by
      unfold Sink.enable
      rw [if_pos ((h.enabled_iff c).2 hc)]
    rw [reorder, if_pos hc, hsame]
    exact h
  · have henabled : ¬ s.enabled c = true := fun henabled => hc ((h.enabled_iff c).1 henabled)
    have hlength : (c : Nat) < s.previous.length := by
      rw [h.length]
      exact c.isLt
    -- only the entry of the new capture is written
    have hself : (s.previous.set c (some s.target)).getD c none = some s.target := by
      rw [List.getD_eq_getElem?_getD, List.getElem?_set_self hlength]
      rfl
    have hother : ∀ d : Fin n, d ≠ c →
        (s.previous.set c (some s.target)).getD d none = s.remembered d := by
      intro d hd
      have hne : (c : Nat) ≠ d := fun heq => hd (Fin.ext heq.symm)
      rw [List.getD_eq_getElem?_getD, List.getElem?_set_ne hne, Sink.remembered,
        List.getD_eq_getElem?_getD]
    unfold Sink.enable
    rw [reorder, if_neg hc, if_neg henabled]
    refine ⟨?_, List.nodup_cons.2 ⟨hc, h.nodup⟩, rfl, ?_, ?_⟩
    · exact List.length_set.trans h.length
    · -- the newest of the others is found below the new one, where it was the top
      intro newer d older horder
      cases newer with
      | nil =>
        obtain ⟨rfl, rfl⟩ := List.cons.inj horder
        rw [← h.target]
        exact hself
      | cons newest newer =>
        obtain ⟨rfl, rfl⟩ := List.cons.inj horder
        have hd : d ≠ c := fun heq => hc (heq ▸ List.mem_append_right _ List.mem_cons_self)
        exact (hother d hd).trans (h.remembered newer d older rfl)
    · intro d hd
      have hne : d ≠ c := fun heq => hd (heq ▸ List.mem_cons_self)
      exact (hother d hne).trans (h.free d fun hmem => hd (List.mem_cons_of_mem _ hmem))

/-- If the newest capture ends, the sink goes back to the next older one. -/
theorem disable (h : Stacked initial order s) (hturn : c ∈ order → order.head? = some c) :
    Stacked initial (order.erase c) (s.disable c) := by
  by_cases hc : c ∈ order
  · cases order with
    | nil => exact absurd hc List.not_mem_nil
    | cons newest older =>
      cases hturn hc
      -- what the capture found is what is on top without it
      have hfound : s.remembered c = some (onTop initial older) := h.remembered [] c older rfl
      obtain ⟨hnotin, hnodup⟩ := List.nodup_cons.1 h.nodup
      have hkeep : ∀ d : Fin n, d ≠ c → (s.disable c).remembered d = s.remembered d :=
        fun d hd => s.remembered_disable_of_ne fun heq => hd (Fin.ext heq.symm)
      rw [List.erase_cons_head]
      refine ⟨?_, hnodup, target_disable hfound, ?_, ?_⟩
      · exact (s.length_previous_disable c).trans h.length
      · rintro newer d oldest rfl
        have hd : d ≠ c := fun heq => hnotin (heq ▸ List.mem_append_right _ List.mem_cons_self)
        exact (hkeep d hd).trans (h.remembered (c :: newer) d oldest rfl)
      · intro d hd
        by_cases hdc : d = c
        · rw [hdc]
          exact s.remembered_disable_self c
        · refine (hkeep d hdc).trans (h.free d fun hmem => ?_)
          rcases List.mem_cons.1 hmem with heq | hmem
          · exact hdc heq
          · exact hd hmem
  · rw [List.erase_of_not_mem hc, disable_of_remembered_eq_none (h.free c hc)]
    exact h

/-- A move that is in turn keeps the captures stacked. -/
theorem move (h : Stacked initial order s) {m : CaptureMove n} (hturn : m.InTurn order) :
    Stacked initial (m.reorder order) (s.move m) := by
  cases m with
  | enable c => exact h.enable c
  | disable c => exact h.disable hturn
  | drop c => exact h.disable hturn

/-- Moves that are all in turn keep the captures stacked. -/
theorem moveAll (h : Stacked initial order s) {moves : List (CaptureMove n)}
    (hturn : AllInTurn order moves) : Stacked initial (moves.foldl reorder order) (s.moveAll moves) := by
  induction moves generalizing order s with
  | nil => exact h
  | cons m moves ih =>
    obtain ⟨hm, hmoves⟩ := hturn
    exact ih (h.move hm) hmoves

/-! ## A capture that ends under a newer one -/

/-- When a capture ends out of turn, the sink is wrong, or becomes so when the next newer one ends. -/
theorem not_isGivenBack (h : Stacked initial order s) (hc : c ∈ order) (hnewest : order.head? ≠ some c) :
    ¬ (s.disable c).IsGivenBack n initial ∨
      ∃ d : Fin n, ¬ ((s.disable c).disable d).IsGivenBack n initial := by
  obtain ⟨above, older, rfl⟩ := List.append_of_mem hc
  rcases List.eq_nil_or_concat above with rfl | ⟨newer, d, rfl⟩
  · exact absurd rfl hnewest
  rw [List.concat_eq_append, List.append_assoc, List.singleton_append] at h
  have hdc : d ≠ c := by
    have hnodup := (List.nodup_append.1 h.nodup).2.1
    exact fun heq => (List.nodup_cons.1 hnodup).1 (heq ▸ List.mem_cons_self)
  have hfound : s.remembered c = some (onTop initial older) :=
    h.remembered (newer ++ [d]) c older (by simp)
  have hnext : (s.disable c).remembered d = some (.buffer c) := by
    rw [s.remembered_disable_of_ne fun heq => hdc (Fin.ext heq.symm)]
    exact h.remembered newer d (c :: older) rfl
  by_contra hright
  obtain ⟨hfirst, hsecond⟩ := not_or.1 hright
  obtain ⟨-, hpresent⟩ := not_not.1 hfirst
  obtain ⟨hrestored, hpresent'⟩ := not_not.1 (not_exists.1 hsecond d)
  -- after both have ended the sink points at the ring of the first, so no capture can be left
  have hnone : ∀ e : Fin n, ¬ ((s.disable c).disable d).enabled e = true := by
    intro e he
    obtain ⟨k, hk, hbuffer⟩ := hpresent' e he
    rw [target_disable hnext] at hbuffer
    rw [← SinkTarget.buffer.inj hbuffer, enabled_disable, enabled_disable] at hk
    exact hk.1.2 rfl
  have hinitial : initial = .buffer c := by
    rw [← hrestored fun e => Bool.eq_false_iff.2 (hnone e), target_disable hnext]
  -- so the second was alone before it ended, and the sink did not point at its ring
  have hstill : (s.disable c).enabled d = true := by
    rw [enabled_eq_isSome, hnext]
    rfl
  obtain ⟨k, hk, hbuffer⟩ := hpresent d hstill
  have hkd : (k : Nat) = d := by
    by_contra hne
    exact hnone k (enabled_disable.2 ⟨hk, hne⟩)
  rw [target_disable hfound, hkd] at hbuffer
  cases older with
  | nil =>
    rw [onTop, hinitial] at hbuffer
    exact hdc (Fin.ext (SinkTarget.buffer.inj hbuffer)).symm
  | cons e older =>
    have hed : e = d := Fin.ext (SinkTarget.buffer.inj hbuffer)
    have hnodup := (List.nodup_append.1 h.nodup).2.1
    exact (List.nodup_cons.1 hnodup).1 (hed ▸ List.mem_cons_of_mem _ List.mem_cons_self)

end Stacked

/-! ## Whole runs -/

/-- **Captures that end in turn give the sink back**: in every state of a run in which no capture ends but
    the newest, the sink is at its first target if none is enabled, and at the ring of an enabled one
    otherwise.  The order cannot be given up: if a capture ends from there on under a newer one, the sink
    is wrong at once or after one more has ended. -/
theorem given_back_in_turn (initial : SinkTarget) (n capacity : Nat) (moves : List (CaptureMove n))
    (hturn : AllInTurn [] moves) :
    ((make initial n capacity).moveAll moves).IsGivenBack n initial ∧
      ∀ c ∈ newestFirst moves, (newestFirst moves).head? ≠ some c →
        ¬ ((make initial n capacity).moveAll (moves ++ [.disable c])).IsGivenBack n initial ∨
          ∃ d : Fin n, ¬ ((make initial n capacity).moveAll
            (moves ++ [.disable c, .disable d])).IsGivenBack n initial := by
  have hstacked := (stacked_make initial n capacity).moveAll hturn
  refine ⟨hstacked.isGivenBack, fun c hc hnewest => ?_⟩
  have hwrong := hstacked.not_isGivenBack hc hnewest
  simp only [moveAll, List.foldl_append]
  exact hwrong

/-- Three captures, the first of them twice, and a fourth that is dropped. -/
theorem given_back_in_turn_twice :
    AllInTurn (n := 3) [] [.enable 0, .enable 1, .enable 1, .enable 2, .drop 2, .disable 1, .disable 0,
        .enable 0, .enable 1] ∧
      ((make .stderr 3 16).moveAll (n := 3) [.enable 0, .enable 1, .enable 1, .enable 2, .drop 2,
        .disable 1, .disable 0, .enable 0, .enable 1]).IsGivenBack 3 .stderr ∧
      (¬ ((make .stderr 3 16).moveAll (n := 3) [.enable 0, .enable 1, .enable 1, .enable 2, .drop 2,
          .disable 1, .disable 0, .enable 0, .enable 1, .disable 0]).IsGivenBack 3 .stderr ∨
        ∃ d : Fin 3, ¬ ((make .stderr 3 16).moveAll (n := 3) [.enable 0, .enable 1, .enable 1, .enable 2,
          .drop 2, .disable 1, .disable 0, .enable 0, .enable 1, .disable 0,
          .disable d]).IsGivenBack 3 .stderr) := by
  have hturn : AllInTurn (n := 3) [] [.enable 0, .enable 1, .enable 1, .enable 2, .drop 2, .disable 1,
      .disable 0, .enable 0, .enable 1] := by decide
  obtain ⟨hback, hwrong⟩ := given_back_in_turn .stderr 3 16 _ hturn
  exact ⟨hturn, hback, hwrong 0 (by decide) (by decide)⟩

/-- Two captures that end in the order in which they were enabled: after the first the sink discards what
    is written while the second is still enabled, and after the second it writes to the ring of the
    first. -/
theorem not_given_back_in_order_of_enabling :
    ¬ ((make .discard 2 16).moveAll (n := 2) [.enable 0, .enable 1, .disable 0]).IsGivenBack 2 .discard ∧
      ¬ ((make .discard 2 16).moveAll (n := 2)
        [.enable 0, .enable 1, .disable 0, .disable 1]).IsGivenBack 2 .discard := by
  decide

end Sink
end TunnelBoard
