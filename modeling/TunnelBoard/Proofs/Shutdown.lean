import Mathlib.Data.List.GetD
import Mathlib.Data.List.Induction
import TunnelBoard.Shutdown
/-
  When the token of a watcher is cancelled.

  A watcher is there to cancel its tokens when the program is asked to stop.  Its scope is its own
  lifetime, and it lives until it finds the flag raised, or until its owner gives it up: so the tokens
  that were taken from it are cancelled in both cases, and whoever holds one of them cannot tell the two
  apart.  `token_cancelled_iff` has the exact condition for every token in hand, in any run of handlers,
  watchers and owners.  The owner himself is never misled, because he can ask only for as long as he
  keeps the watcher.  `cancelled_without_request` is a run in which nobody asked for anything, and yet a
  token that has outlasted its watcher is cancelled.

  The state forgets how it came about: that a watcher is over does not say why.  The reasons are read off
  the moves of the run, as things that happened once (`Once`): the flag was asked for (`Asked`), the
  watcher looked at it afterwards (`Sighted`), the watcher noticed that it had been given up (`Dropped`).
  A flag is raised if and only if it was asked for (`isRaised_iff`), and the crux is `Told`, by which the
  stage of a watcher and the reasons found in the moves say the same.  It is kept from move to move:
  a move is about at most one watcher (`watchers_of_turn`), which it leads on as its moves say
  (`Told.of_turn`), and of all others nothing more is said (`Told.of_other`).
-/

namespace TunnelBoard
namespace Shutdown

variable {s s' : Shutdown} {moves : List Move} {m : Move} {w flag : Nat}

/-! ## What happened in a run -/

/-- A run of two pieces is the second piece, made where the first one has led. -/
theorem run_append (s : Shutdown) (ms ns : List Move) :
    s.run (ms ++ ns) = (s.run ms).bind (·.run ns) := by
  induction ms generalizing s with
  | nil => rfl
  | cons m ms ih =>
    show (s.step m).bind _ = ((s.step m).bind _).bind _
    rw [Option.bind_assoc]
    exact Option.bind_congr fun s' _ => ih s'

/-- Of a run with a last move, the rest is a run. -/
theorem exists_of_run_snoc (h : s.run (moves ++ [m]) = some s') :
    ∃ s₁, s.run moves = some s₁ ∧ s₁.step m = some s' := by
  rw [run_append] at h
  obtain ⟨s₁, hr, hlast⟩ := Option.bind_eq_some_iff.1 h
  obtain ⟨s₂, hm, hnone⟩ := Option.bind_eq_some_iff.1 hlast
  cases hnone
  exact ⟨s₁, hr, hm⟩

/-- Whether there is a move of which `p` holds, with the moves before it. -/
def Once (p : List Move → Move → Prop) (moves : List Move) : Prop :=
  ∃ before m after, moves = before ++ m :: after ∧ p before m

variable {p : List Move → Move → Prop}

/-- Nothing happened before the first move. -/
theorem not_once_nil : ¬ Once p [] := by
  rintro ⟨before, m, after, hmoves, -⟩
  simp at hmoves

/-- What happened once stays so. -/
theorem Once.append (h : Once p moves) (rest : List Move) : Once p (moves ++ rest) := by
  obtain ⟨before, m, after, rfl, hp⟩ := h
  exact ⟨before, m, after ++ rest, by rw [List.append_assoc, List.cons_append], hp⟩

/-- What happened once is the last move, or happened before it. -/
theorem once_snoc : Once p (moves ++ [m]) ↔ Once p moves ∨ p moves m := by
  constructor
  · rintro ⟨before, n, after, hmoves, hp⟩
    rcases List.eq_nil_or_concat after with rfl | ⟨rest, last, rfl⟩
    · obtain ⟨rfl, hlast⟩ := List.append_inj' hmoves rfl
      cases hlast
      exact Or.inr hp
    · rw [List.concat_eq_append, ← List.cons_append, ← List.append_assoc] at hmoves
      obtain ⟨rfl, -⟩ := List.append_inj' hmoves rfl
      exact Or.inl ⟨before, n, rest, rfl, hp⟩
  · rintro (h | hp)
    · exact h.append [m]
    · exact ⟨moves, m, [], rfl, hp⟩

/-- Whether a move asks for the handlers with a flag to stop. -/
def Move.asks (s : Shutdown) (flag : Nat) : Move → Prop
  | .request h => s.flagOf h = flag
  | .signal => flag < s.flags.length
  | _ => False

/-- Whether the handlers with a flag were asked to stop. -/
def Asked (flag : Nat) (moves : List Move) : Prop :=
  Once (fun before m => ∃ s, empty.run before = some s ∧ m.asks s flag) moves

/-- Whether a watcher looked at a flag after it had been asked for. -/
def Sighted (flag w : Nat) (moves : List Move) : Prop :=
  Once (fun before m => m = .look w ∧ Asked flag before) moves

/-- Whether a watcher noticed that it had been given up. -/
def Dropped (w : Nat) (moves : List Move) : Prop :=
  Once (fun before m => m = .finish w ∧ .giveUp w ∈ before) moves

/-- Whether a watcher was made for a handler with a flag.  Watchers are numbered in the order in which
    they are made. -/
def WatchedFor (flag w : Nat) (moves : List Move) : Prop :=
  Once (fun before m => ∃ s h, empty.run before = some s ∧ m = .watch h ∧
    s.flagOf h = flag ∧ s.watchers.length = w) moves

/-- What happened once is among what happened. -/
theorem Once.exists_mem (h : Once p moves) : ∃ before, ∃ m ∈ moves, p before m := by
  obtain ⟨before, m, after, rfl, hp⟩ := h
  exact ⟨before, m, List.mem_append_right _ List.mem_cons_self, hp⟩

/-! ## What a move does

The moves are listed with all that they need and all that they change.  A watcher is led on in four
ways: it finds its flag raised or down, it wakes, or it ends because it was given up. -/

/-- A watcher is held for as long as its owner has not given it up. -/
theorem held?_eq_some_iff {x : Watcher} :
    s.held? w = some x ↔ s.watchers[w]? = some x ∧ x.givenUp = false := by
  rw [held?, Option.filter_eq_some_iff, Bool.not_eq_true']

/-- The watcher that a move changes. -/
def Move.watcher? : Move → Option Nat
  | .giveUp w | .look w | .wake w | .finish w => some w
  | _ => none

/-- What a move does, with what has to hold for it to be made.  Each way in which a watcher can be led on
    has a case of its own, so that the two ends of a look are told apart. -/
inductive Turn (s : Shutdown) : Move → Shutdown → Prop where
  | added : Turn s .addHandler s.addHandler
  | cloned {h : Nat} (known : h < s.handlers.length) : Turn s (.cloneHandler h) (s.cloneHandler h)
  | requested {h : Nat} (known : h < s.handlers.length) : Turn s (.request h) (s.request h)
  | signalled : Turn s .signal s.signal
  | watched {h : Nat} (known : h < s.handlers.length) : Turn s (.watch h) (s.watch h)
  | took {w : Nat} {x : Watcher} (is : s.watchers[w]? = some x) (kept : x.givenUp = false) :
      Turn s (.takeToken w) { s with tokens := s.tokens ++ [Token.ofScope w] }
  | copied {i : Nat} {t : Token Nat} (is : s.tokens[i]? = some t) :
      Turn s (.copyToken i) { s with tokens := s.tokens ++ [t] }
  | gaveUp {w : Nat} {x : Watcher} (is : s.watchers[w]? = some x) (kept : x.givenUp = false) :
      Turn s (.giveUp w) { s with watchers := s.watchers.set w { x with givenUp := true } }
  | found {w : Nat} {x : Watcher} (is : s.watchers[w]? = some x) (looking : x.stage = .looking)
      (raised : s.isRaised x.flag = true) :
      Turn s (.look w) { s with watchers := s.watchers.set w { x with stage := .fired } }
  | missed {w : Nat} {x : Watcher} (is : s.watchers[w]? = some x) (looking : x.stage = .looking)
      (raised : s.isRaised x.flag = false) :
      Turn s (.look w) { s with watchers := s.watchers.set w { x with stage := .sleeping } }
  | woke {w : Nat} {x : Watcher} (is : s.watchers[w]? = some x) (sleeping : x.stage = .sleeping) :
      Turn s (.wake w) { s with watchers := s.watchers.set w { x with stage := .looking } }
  | finished {w : Nat} {x : Watcher} (is : s.watchers[w]? = some x) (sleeping : x.stage = .sleeping)
      (givenUp : x.givenUp = true) :
      Turn s (.finish w) { s with watchers := s.watchers.set w { x with stage := .ended } }

/-- What becomes of a watcher that looks at its flag. -/
theorem turn_of_look {records : List LogRecord} (h : s.look w = some (s', records)) :
    s.Turn (.look w) s' := by
  unfold look at h
  split at h
  · rename_i x hx
    split at h
    · rename_i hlooking
      cases hraised : s.isRaised x.flag with
      | true =>
        simp only [hraised] at h
        cases h
        exact .found hx hlooking hraised
      | false =>
        simp only [hraised] at h
        cases h
        exact .missed hx hlooking hraised
    · cases h
  · cases h

/-- A step is one of the turns: whoever knows what a turn does need not look into the step. -/
theorem turn_of_step (h : s.step m = some s') : s.Turn m s' := by
  -- most moves are made under a condition on the numbers in them
  have hguard : ∀ {b : Prop} [Decidable b] {s₁ : Shutdown}, (if b then some s₁ else none) = some s' →
      b ∧ s₁ = s' := by
    intro b _ s₁ hif
    split at hif
    · exact ⟨‹b›, Option.some.inj hif⟩
    · cases hif
  cases m with
  | addHandler =>
    cases h
    exact .added
  | signal =>
    cases h
    exact .signalled
  | cloneHandler k =>
    obtain ⟨hknown, rfl⟩ := hguard h
    exact .cloned hknown
  | request k =>
    obtain ⟨hknown, rfl⟩ := hguard h
    exact .requested hknown
  | watch k =>
    obtain ⟨hknown, rfl⟩ := hguard h
    exact .watched hknown
  | takeToken w =>
    obtain ⟨x, hheld, rfl⟩ := Option.map_eq_some_iff.1 h
    obtain ⟨hx, hkept⟩ := held?_eq_some_iff.1 hheld
    exact .took hx hkept
  | copyToken i =>
    obtain ⟨t, ht, rfl⟩ := Option.map_eq_some_iff.1 h
    exact .copied ht
  | giveUp w =>
    obtain ⟨x, hheld, rfl⟩ := Option.map_eq_some_iff.1 h
    obtain ⟨hx, hkept⟩ := held?_eq_some_iff.1 hheld
    have : Inhabited Watcher := ⟨x⟩
    rw [giveUp, List.modify_eq_set, hx]
    exact .gaveUp hx hkept
  | look w =>
    obtain ⟨⟨s₁, records⟩, hlook, rfl⟩ := Option.map_eq_some_iff.1 h
    exact turn_of_look hlook
  | wake w =>
    simp only [step, wake] at h
    split at h
    · obtain ⟨hsleeping, rfl⟩ := hguard h
      exact .woke ‹_› hsleeping
    · cases h
  | finish w =>
    simp only [step, finish] at h
    split at h
    · obtain ⟨⟨hsleeping, hgiven⟩, rfl⟩ := hguard h
      exact .finished ‹_› hsleeping hgiven
    · cases h

/-- The watchers stay as they are, or there is one more, or the one that the move is about changes.
    Whatever becomes of a watcher, it watches the same flag. -/
theorem watchers_of_turn (ht : s.Turn m s') :
    (m.watcher? = none ∧ (s'.watchers = s.watchers ∨
      ∃ h, m = .watch h ∧ s'.watchers = s.watchers ++ [⟨s.flagOf h, .looking, false⟩])) ∨
    ∃ w x y, m.watcher? = some w ∧ s.watchers[w]? = some x ∧ s'.watchers = s.watchers.set w y ∧
      y.flag = x.flag := by
  cases ht with
  | added | cloned | requested | signalled | took | copied => exact Or.inl ⟨rfl, Or.inl rfl⟩
  | watched => exact Or.inl ⟨rfl, Or.inr ⟨_, rfl, rfl⟩⟩
  | gaveUp is | found is | missed is | woke is | finished is =>
    exact Or.inr ⟨_, _, _, rfl, is, rfl, rfl⟩

/-- No watcher is ever forgotten. -/
theorem length_watchers_le (ht : s.Turn m s') : s.watchers.length ≤ s'.watchers.length := by
  rcases watchers_of_turn ht with ⟨-, hsame | ⟨h, -, hmore⟩⟩ | ⟨v, x, y, -, -, hset, -⟩
  · exact Nat.le_of_eq (congrArg List.length hsame.symm)
  · rw [hmore, List.length_append]
    exact Nat.le_add_right _ _
  · exact Nat.le_of_eq (by rw [hset, List.length_set])

/-! ## Flags

A flag is raised by a request to a handler that has it, and by a signal, which raises all flags there
are.  It is never lowered, so it is up exactly if one of these stands in the run. -/

/-- Whether a flag was asked for is told by the last move and by those before it. -/
theorem asked_snoc (hr : empty.run moves = some s) :
    Asked flag (moves ++ [m]) ↔ Asked flag moves ∨ m.asks s flag := by
  unfold Asked
  rw [once_snoc, hr]
  simp

/-- The flag of a handler that there is belongs to one of the handlers. -/
theorem flagOf_mem {h : Nat} (known : h < s.handlers.length) : s.flagOf h ∈ s.handlers := by
  rw [flagOf, List.getD_eq_getElem _ _ known]
  exact List.getElem_mem known

/-- Every handler has a flag. -/
theorem lt_of_mem_handlers (hr : empty.run moves = some s) {f : Nat} (hf : f ∈ s.handlers) :
    f < s.flags.length := by
  induction moves using List.reverseRecOn generalizing s with
  | nil =>
    cases hr
    exact absurd hf List.not_mem_nil
  | append_singleton moves m ih =>
    obtain ⟨s₁, hr₁, hstep⟩ := exists_of_run_snoc hr
    have hturn := turn_of_step hstep
    cases hturn with
    | added =>
      simp only [addHandler, List.mem_append, List.mem_singleton, List.length_append] at hf ⊢
      rcases hf with hf | rfl
      · have := ih hr₁ hf
        omega
      · simp
    | cloned known =>
      simp only [cloneHandler, List.mem_append, List.mem_singleton] at hf ⊢
      rcases hf with hf | rfl
      · exact ih hr₁ hf
      · exact ih hr₁ (flagOf_mem known)
    | requested =>
      simp only [request, List.length_set]
      exact ih hr₁ hf
    | signalled =>
      simp only [signal, List.length_map]
      exact ih hr₁ hf
    -- the others leave the handlers and the flags alone
    | watched | took | copied | gaveUp | found | missed | woke | finished => exact ih (s := s₁) hr₁ hf

/-- A flag that there is not counts as one that is down. -/
theorem isRaised_eq (s : Shutdown) (flag : Nat) : s.isRaised flag = true ↔ s.flags[flag]? = some true := by
  unfold isRaised
  rw [List.getD_eq_getElem?_getD]
  cases s.flags[flag]? with
  | none => simp
  | some b => simp

/-- A flag is raised if and only if it was asked for. -/
theorem isRaised_iff (hr : empty.run moves = some s) : s.isRaised flag = true ↔ Asked flag moves := by
  induction moves using List.reverseRecOn generalizing s with
  | nil =>
    cases hr
    constructor
    · intro hraised
      rw [isRaised_eq] at hraised
      cases hraised
    · intro hasked
      exact absurd hasked not_once_nil
  | append_singleton moves m ih =>
    obtain ⟨s₁, hr₁, hstep⟩ := exists_of_run_snoc hr
    rw [asked_snoc hr₁, ← ih hr₁]
    cases turn_of_step hstep with
    | added =>
      simp only [isRaised_eq, addHandler, Move.asks, or_false]
      -- the flag of the new handler is the one behind the last, and it is down
      rcases Nat.lt_trichotomy flag s₁.flags.length with hlt | rfl | hgt
      · rw [List.getElem?_append_left hlt]
      · simp
      · rw [List.getElem?_eq_none (by simp; omega), List.getElem?_eq_none (by omega)]
    | requested known =>
      have hlt := lt_of_mem_handlers hr₁ (flagOf_mem known)
      simp only [isRaised_eq, request, Move.asks, List.getElem?_set]
      split
      · rename_i heq
        exact ⟨fun _ => Or.inr heq, fun _ => rfl⟩
      · rename_i hne
        exact ⟨Or.inl, fun h => h.resolve_right hne⟩
    | signalled =>
      simp only [isRaised_eq, signal, Move.asks, List.getElem?_map]
      constructor
      · intro hsome
        obtain ⟨b, hb, -⟩ := Option.map_eq_some_iff.1 hsome
        exact Or.inr (List.getElem?_eq_some_iff.1 hb).1
      · rintro (hraised | hlt)
        · rw [hraised]
          rfl
        · rw [List.getElem?_eq_getElem hlt]
          rfl
    | cloned | watched | took | copied | gaveUp | found | missed | woke | finished =>
      exact (or_false _).symm.to_iff

/-! ## Watchers

How far a watcher has come is told by the moves that were about it, and by nothing else.  So there are
two kinds of turns to look at: those about other things, and those about the watcher itself. -/

/-- What the moves of a run say of a watcher. -/
structure Told (moves : List Move) (w : Nat) (x : Watcher) : Prop where
  givenUp : x.givenUp = true ↔ .giveUp w ∈ moves
  sighted : x.stage = .fired ↔ Sighted x.flag w moves
  dropped : x.stage = .ended ↔ Dropped w moves

/-- Whether a watcher saw its flag is told by its last look and by those before it. -/
theorem sighted_snoc : Sighted flag w (moves ++ [m]) ↔
    Sighted flag w moves ∨ (m = .look w ∧ Asked flag moves) := once_snoc

/-- Whether a watcher noticed that it had been given up is told by the last move and by those before
    it. -/
theorem dropped_snoc : Dropped w (moves ++ [m]) ↔
    Dropped w moves ∨ (m = .finish w ∧ .giveUp w ∈ moves) := once_snoc

variable {x : Watcher}

/-- A watcher that no move was about is at its beginning. -/
theorem told_of_fresh (h : ∀ m ∈ moves, m.watcher? ≠ some w) (hgiven : x.givenUp = false)
    (hlooking : x.stage = .looking) : Told moves w x := by
  constructor
  · rw [hgiven]
    exact ⟨nofun, fun hm => absurd rfl (h _ hm)⟩
  · rw [hlooking]
    refine ⟨nofun, fun hsighted => ?_⟩
    obtain ⟨before, m, hm, rfl, -⟩ := hsighted.exists_mem
    exact absurd rfl (h _ hm)
  · rw [hlooking]
    refine ⟨nofun, fun hdropped => ?_⟩
    obtain ⟨before, m, hm, rfl, -⟩ := hdropped.exists_mem
    exact absurd rfl (h _ hm)

/-- What is done to one watcher says nothing of the others. -/
theorem Told.of_other (h : Told moves w x) (hm : m.watcher? ≠ some w) : Told (moves ++ [m]) w x := by
  constructor
  · rw [h.givenUp, List.mem_append, List.mem_singleton]
    exact ⟨Or.inl, fun hor => hor.resolve_right fun heq => hm (heq ▸ rfl)⟩
  · rw [h.sighted, sighted_snoc]
    exact ⟨Or.inl, fun hor => hor.resolve_right fun hlook => hm (hlook.1 ▸ rfl)⟩
  · rw [h.dropped, dropped_snoc]
    exact ⟨Or.inl, fun hor => hor.resolve_right fun hfinish => hm (hfinish.1 ▸ rfl)⟩

/-- What becomes of a watcher that is not given up just now. -/
theorem Told.snoc (h : Told moves w x) {stage : WatcherStage} (hm : m ≠ .giveUp w)
    (hfired : stage = .fired ↔ x.stage = .fired ∨ (m = .look w ∧ Asked x.flag moves))
    (hended : stage = .ended ↔ x.stage = .ended ∨ (m = .finish w ∧ x.givenUp = true)) :
    Told (moves ++ [m]) w { x with stage } := by
  constructor
  · rw [List.mem_append, List.mem_singleton, or_iff_left hm.symm]
    exact h.givenUp
  · rw [sighted_snoc, ← h.sighted]
    exact hfired
  · rw [dropped_snoc, ← h.dropped, ← h.givenUp]
    exact hended

/-- A move says of the watcher that it is about what has become of it. -/
theorem Told.of_turn (h : Told moves w x) (hr : empty.run moves = some s) (ht : s.Turn m s')
    (hm : m.watcher? = some w) (hx : s.watchers[w]? = some x) :
    ∃ y, s'.watchers = s.watchers.set w y ∧ Told (moves ++ [m]) w y := by
  -- what a look finds is what was asked for
  have hasked : s.isRaised x.flag = true ↔ Asked x.flag moves := isRaised_iff hr
  cases ht with
  | added | cloned | requested | signalled | watched | took | copied => cases hm
  | gaveUp is =>
    cases hm
    cases is.symm.trans hx
    refine ⟨_, rfl, ?_, ?_, ?_⟩
    · exact ⟨fun _ => List.mem_append_right _ List.mem_cons_self, fun _ => rfl⟩
    · rw [sighted_snoc, ← h.sighted]
      exact ⟨Or.inl, fun hor => hor.resolve_right fun hlook => nomatch hlook.1⟩
    · rw [dropped_snoc, ← h.dropped]
      exact ⟨Or.inl, fun hor => hor.resolve_right fun hfinish => nomatch hfinish.1⟩
  | found is looking raised =>
    cases hm
    cases is.symm.trans hx
    refine ⟨_, rfl, h.snoc nofun ?_ ?_⟩
    · exact ⟨fun _ => Or.inr ⟨rfl, hasked.1 raised⟩, fun _ => rfl⟩
    · simp [looking]
  | missed is looking raised =>
    cases hm
    cases is.symm.trans hx
    refine ⟨_, rfl, h.snoc nofun ?_ ?_⟩
    · simp [looking, ← hasked, raised]
    · simp [looking]
  | woke is sleeping =>
    cases hm
    cases is.symm.trans hx
    refine ⟨_, rfl, h.snoc nofun ?_ ?_⟩
    · simp [sleeping]
    · simp [sleeping]
  | finished is sleeping givenUp =>
    cases hm
    cases is.symm.trans hx
    refine ⟨_, rfl, h.snoc nofun ?_ ?_⟩
    · simp [sleeping]
    · simp [givenUp]

/-- Moves change watchers that there are. -/
theorem lt_of_mem (hr : empty.run moves = some s) (hm : m ∈ moves) (hw : m.watcher? = some w) :
    w < s.watchers.length := by
  induction moves using List.reverseRecOn generalizing s with
  | nil => exact absurd hm List.not_mem_nil
  | append_singleton moves n ih =>
    obtain ⟨s₁, hr₁, hstep⟩ := exists_of_run_snoc hr
    have hturn := turn_of_step hstep
    rcases List.mem_append.1 hm with hm | hm
    · exact Nat.lt_of_lt_of_le (ih hr₁ hm) (length_watchers_le hturn)
    · cases List.mem_singleton.1 hm
      rcases watchers_of_turn hturn with ⟨hnone, -⟩ | ⟨v, x, y, hv, hx, hset, -⟩
      · rw [hnone] at hw
        cases hw
      · cases hv.symm.trans hw
        rw [hset, List.length_set]
        exact (List.getElem?_eq_some_iff.1 hx).1

/-- How far a watcher has come, and whether it was given up, can be read off the run. -/
theorem told_of_run (hr : empty.run moves = some s) (hx : s.watchers[w]? = some x) :
    Told moves w x := by
  induction moves using List.reverseRecOn generalizing s x with
  | nil =>
    cases hr
    cases hx
  | append_singleton moves m ih =>
    obtain ⟨s₁, hr₁, hstep⟩ := exists_of_run_snoc hr
    have hturn := turn_of_step hstep
    rcases watchers_of_turn hturn with ⟨hnone, hsame | ⟨h, -, hmore⟩⟩ | ⟨v, x₁, y₁, hv, hx₁, hset, -⟩
    · rw [hsame] at hx
      exact (ih hr₁ hx).of_other (by rw [hnone]; nofun)
    · rw [hmore] at hx
      rcases Nat.lt_or_ge w s₁.watchers.length with hlt | hge
      · rw [List.getElem?_append_left hlt] at hx
        exact (ih hr₁ hx).of_other (by rw [hnone]; nofun)
      · -- the new one, of which there has been no word yet
        rw [List.getElem?_append_right hge] at hx
        obtain ⟨_, hnew⟩ := List.getElem?_eq_some_iff.1 hx
        rw [List.getElem_singleton] at hnew
        refine told_of_fresh (fun n hn hw => ?_) (by rw [← hnew]) (by rw [← hnew])
        rcases List.mem_append.1 hn with hn | hn
        · have hlt := lt_of_mem hr₁ hn hw
          omega
        · rw [List.mem_singleton.1 hn, hnone] at hw
          cases hw
    · by_cases hw : v = w
      · subst hw
        obtain ⟨y, hy, htold⟩ := (ih hr₁ hx₁).of_turn hr₁ hturn hv hx₁
        rw [hy, List.getElem?_set_self (List.getElem?_eq_some_iff.1 hx₁).1] at hx
        cases hx
        exact htold
      · rw [hset, List.getElem?_set_ne hw] at hx
        refine (ih hr₁ hx).of_other ?_
        rw [hv]
        exact fun heq => hw (Option.some.inj heq)

/-- Every watcher was made for a handler, whose flag it has watched ever since. -/
theorem watchedFor_of_run (hr : empty.run moves = some s) (hx : s.watchers[w]? = some x) :
    WatchedFor x.flag w moves := by
  induction moves using List.reverseRecOn generalizing s x with
  | nil =>
    cases hr
    cases hx
  | append_singleton moves m ih =>
    obtain ⟨s₁, hr₁, hstep⟩ := exists_of_run_snoc hr
    rcases watchers_of_turn (turn_of_step hstep) with
      ⟨-, hsame | ⟨h, hwatch, hmore⟩⟩ | ⟨v, x₁, y₁, -, hx₁, hset, hflag⟩
    · rw [hsame] at hx
      exact (ih hr₁ hx).append [m]
    · rw [hmore] at hx
      rcases Nat.lt_or_ge w s₁.watchers.length with hlt | hge
      · rw [List.getElem?_append_left hlt] at hx
        exact (ih hr₁ hx).append [m]
      · -- there is only one behind the last
        rw [List.getElem?_append_right hge] at hx
        obtain ⟨hlast, hnew⟩ := List.getElem?_eq_some_iff.1 hx
        rw [List.getElem_singleton] at hnew
        rw [List.length_singleton] at hlast
        exact once_snoc.2 (Or.inr ⟨s₁, h, hr₁, hwatch, by rw [← hnew], by omega⟩)
    · by_cases hw : v = w
      · subst hw
        rw [hset, List.getElem?_set_self (List.getElem?_eq_some_iff.1 hx₁).1] at hx
        cases hx
        rw [hflag]
        exact (ih hr₁ hx₁).append [m]
      · rw [hset, List.getElem?_set_ne hw] at hx
        exact (ih hr₁ hx).append [m]

/-! ## Tokens

A token has the scope of the watcher that it was taken from, and a copy has the same.  The scope ends
when the watcher is over, whichever way that came about. -/

/-- A token in hand was taken from a watcher, though that may have been given up since. -/
theorem taken_of_mem_tokens (hr : empty.run moves = some s) {t : Token Nat} (ht : t ∈ s.tokens) :
    ∃ w, t = Token.ofScope w ∧ .takeToken w ∈ moves ∧ w < s.watchers.length := by
  induction moves using List.reverseRecOn generalizing s with
  | nil =>
    cases hr
    exact absurd ht List.not_mem_nil
  | append_singleton moves m ih =>
    obtain ⟨s₁, hr₁, hstep⟩ := exists_of_run_snoc hr
    have hturn := turn_of_step hstep
    -- watchers are numbered for good, so a token that was there has its watcher still
    have hold : t ∈ s₁.tokens →
        ∃ w, t = Token.ofScope w ∧ .takeToken w ∈ moves ++ [m] ∧ w < s.watchers.length := by
      intro hmem
      obtain ⟨w, rfl, htake, hlt⟩ := ih hr₁ hmem
      exact ⟨w, rfl, List.mem_append_left _ htake, Nat.lt_of_lt_of_le hlt (length_watchers_le hturn)⟩
    cases hturn with
    | took is =>
      rcases List.mem_append.1 ht with hmem | hmem
      · exact hold hmem
      · exact ⟨_, List.mem_singleton.1 hmem, List.mem_append_right _ List.mem_cons_self,
          (List.getElem?_eq_some_iff.1 is).1⟩
    | copied is =>
      rcases List.mem_append.1 ht with hmem | hmem
      · exact hold hmem
      · rw [List.mem_singleton.1 hmem] at hold ⊢
        exact hold (List.mem_of_getElem? is)
    | added | cloned | requested | signalled | watched | gaveUp | found | missed | woke | finished =>
      exact hold ht

/-- A token of a watcher is cancelled as soon as the watcher is over, for one reason or the other. -/
theorem cancelled_iff (hr : empty.run moves = some s) (hx : s.watchers[w]? = some x) :
    (Token.ofScope w).cancelled s.hasEnded = true ↔ Sighted x.flag w moves ∨ Dropped w moves := by
  have htold := told_of_run hr hx
  rw [Token.cancelled_ofScope, hasEnded, hx, ← htold.sighted, ← htold.dropped]
  simp

/-- Only what was asked for can be sighted. -/
theorem Sighted.asked (h : Sighted flag w moves) : Asked flag moves := by
  obtain ⟨before, m, after, rfl, -, hasked⟩ := h
  exact hasked.append (m :: after)

/-- A watcher that is kept does not notice that it was given up. -/
theorem not_dropped_of_kept (hkept : .giveUp w ∉ moves) : ¬ Dropped w moves := by
  rintro ⟨before, m, after, rfl, -, hgiven⟩
  exact hkept (List.mem_append_left _ hgiven)

/-- **When a token is cancelled**, in any run of handlers, watchers and owners.  A token in hand was taken
    from a watcher of some handler, and it is cancelled if and only if that watcher has looked at its flag
    after it had been asked for, or has noticed that it was given up.  So it tells of a request only for
    as long as the watcher is kept.  The owner of a watcher, who can ask it only while he keeps it, is
    told that it has fired if and only if it looked at its flag after a request. -/
theorem token_cancelled_iff (hr : empty.run moves = some s) :
    (∀ t ∈ s.tokens, ∃ w x, t = Token.ofScope w ∧ .takeToken w ∈ moves ∧ s.watchers[w]? = some x ∧
      WatchedFor x.flag w moves ∧
      (t.cancelled s.hasEnded = true ↔ Sighted x.flag w moves ∨ Dropped w moves) ∧
      (.giveUp w ∉ moves → t.cancelled s.hasEnded = true → Asked x.flag moves)) ∧
    (∀ w fired, s.fired? w = some fired → ∃ x, s.watchers[w]? = some x ∧ .giveUp w ∉ moves ∧
      WatchedFor x.flag w moves ∧ (fired = true ↔ Sighted x.flag w moves) ∧
      (fired = true → Asked x.flag moves)) := by
  constructor
  · intro t ht
    obtain ⟨w, rfl, htake, hlt⟩ := taken_of_mem_tokens hr ht
    have hx : s.watchers[w]? = some s.watchers[w] := List.getElem?_eq_getElem hlt
    have hiff := cancelled_iff hr hx
    refine ⟨w, _, rfl, htake, hx, watchedFor_of_run hr hx, hiff, fun hkept hcancelled => ?_⟩
    exact ((hiff.1 hcancelled).resolve_right (not_dropped_of_kept hkept)).asked
  · intro w fired hfired
    obtain ⟨x, hheld, rfl⟩ := Option.map_eq_some_iff.1 hfired
    obtain ⟨hx, hgiven⟩ := held?_eq_some_iff.1 hheld
    have hkept : .giveUp w ∉ moves := by
      rw [← (told_of_run hr hx).givenUp, hgiven]
      exact Bool.false_ne_true
    -- who holds the watcher has not given it up, so only a look can have cancelled the token
    have hsighted := (cancelled_iff hr hx).trans (or_iff_left (not_dropped_of_kept hkept))
    exact ⟨x, hx, hkept, watchedFor_of_run hr hx, hsighted, fun h => (hsighted.1 h).asked⟩

/-- A watcher from which a token is taken, a copy of the token, and a request to a copy of the handler. -/
def heeded : List Move :=
  [.addHandler, .cloneHandler 0, .watch 0, .takeToken 0, .copyToken 0, .request 1, .look 0]

/-- The watcher is kept, so its owner and its tokens tell of the request. -/
theorem token_cancelled_of_copy :
    ∃ s, empty.run heeded = some s ∧ s.tokens[1]? = some (Token.ofScope 0) ∧
      (Token.ofScope 0).cancelled s.hasEnded = true ∧ s.fired? 0 = some true ∧ Asked 0 heeded := by
  have hrun : empty.run heeded =
    some ⟨[0, 0], [true], [⟨0, .fired, false⟩], [Token.ofScope 0, Token.ofScope 0]⟩ := rfl
  have hkept : .giveUp 0 ∉ heeded := by decide
  obtain ⟨w, x, htoken, -, hx, -, -, hasked⟩ :=
    (token_cancelled_iff hrun).1 (Token.ofScope 0) List.mem_cons_self
  obtain rfl : 0 = w := by simpa [Token.ofScope] using htoken
  cases hx
  exact ⟨_, hrun, rfl, rfl, rfl, hasked hkept rfl⟩

/-- A watcher from which a token is taken, and which is given up before anybody asks for anything. -/
def forsaken : List Move :=
  [.addHandler, .watch 0, .takeToken 0, .look 0, .giveUp 0, .finish 0]

/-- The token has outlasted its watcher, which nobody can ask any more, and is cancelled without any
    request. -/
theorem cancelled_without_request :
    ∃ s, empty.run forsaken = some s ∧ s.fired? 0 = none ∧
      ∃ t ∈ s.tokens, t.cancelled s.hasEnded = true ∧ WatchedFor 0 0 forsaken ∧
        ¬ Asked 0 forsaken := by
  refine ⟨_, rfl, rfl, Token.ofScope 0, List.mem_singleton.2 rfl, rfl,
    watchedFor_of_run (s := _) (x := ⟨0, .ended, true⟩) rfl rfl, fun hasked => ?_⟩
  have hraised := (isRaised_iff rfl).2 hasked
  cases hraised

end Shutdown
end TunnelBoard
