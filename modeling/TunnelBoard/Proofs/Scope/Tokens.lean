import Mathlib.Data.List.Forall2
import TunnelBoard.Scope.Canceller
import TunnelBoard.Scope.Wait
/-
  A token means that one of its scopes has ended.

  Tokens are merged by writing their scopes one behind the other, and a wait takes any of the
  operations that can go ahead and looks at its position.  The positions do not matter: whatever a
  wait may answer follows from whether each token is cancelled and from the channel (`receive_eq`,
  `race_eq`, `sleepThrough_eq`).  So tokens that are cancelled in the same circumstances cannot be
  told apart (`alike_of_cancelled`), and merging is associative, commutative and idempotent, with the
  token that is never cancelled as its unit.

  A scope has ended when its owner was told to cancel it or was dropped (`hasEnded_iff`), and it never
  begins again.  A token is traced back through the merges it comes from (`Origin`): it is cancelled
  exactly when one of the scopes it comes from has ended.  The tree grows with the moves of a run and
  is a matter of the moves alone, whatever has ended so far, so that the description of a token
  (`Describes`) is kept by every move, those that end a scope included.

  What is waited for is not part of the run.  The answers are said for all channels and all pairs of
  tokens in a state that a run may come to.
-/

namespace TunnelBoard

/-! ## Choices by position

A race is run over a row of operations, some of which belong to the one token and the rest to the
other.  Which of them can go ahead is known by position, so the row may be split between the two. -/

section

variable {xs ys : List Bool}

/-- The operations that can go ahead, in two parts of a row. -/
theorem ready_append (xs ys : List Bool) :
    ready (xs ++ ys) = ready xs ++ (ready ys).map (· + xs.length) := by
  induction xs with
  | nil => exact (List.map_id _).symm
  | cons x xs ih =>
    have hshift : ((ready ys).map (· + xs.length)).map (· + 1) = (ready ys).map (· + (x :: xs).length) := by
      rw [List.map_map]
      rfl
    rw [List.cons_append, ready, ih, List.map_append, hshift, ready, List.append_assoc]

/-- The operations that can go ahead are among those of the row. -/
theorem lt_of_mem_ready {i : Nat} (h : i ∈ ready xs) : i < xs.length := by
  induction xs generalizing i with
  | nil => exact absurd h List.not_mem_nil
  | cons x xs ih =>
    rcases List.mem_append.1 h with hfirst | hlater
    · split at hfirst
      · rw [List.mem_singleton.1 hfirst]
        exact Nat.zero_lt_succ _
      · exact absurd hfirst List.not_mem_nil
    · obtain ⟨j, hj, rfl⟩ := List.mem_map.1 hlater
      exact Nat.succ_lt_succ (ih hj)

/-- There are none if no operation can go ahead. -/
theorem isEmpty_ready (xs : List Bool) : (ready xs).isEmpty = !xs.any id := by
  induction xs with
  | nil => rfl
  | cons x xs ih =>
    cases x with
    | true => rfl
    | false =>
      rw [ready, if_neg Bool.false_ne_true, List.nil_append, List.isEmpty_map, ih]
      rfl

/-- Where all entries are alike, one is left. -/
theorem eraseDups_of_all {b : Bool} (h : ∀ x ∈ xs, x = b) :
    xs.eraseDups = if xs.isEmpty then [] else [b] := by
  cases xs with
  | nil => rfl
  | cons x xs =>
    have hnone : xs.filter (fun y => !y == x) = [] := by
      apply List.filter_eq_nil_iff.2
      intro y hy
      rw [h y (List.mem_cons_of_mem _ hy), h x List.mem_cons_self]
      cases b with
      | true => decide
      | false => decide
    rw [List.eraseDups_cons, hnone, h x List.mem_cons_self]
    rfl

/-- Which side of a row of operations may be taken: each that has one which can go ahead. -/
theorem standsBefore_append (xs ys : List Bool) :
    standsBefore xs.length (xs ++ ys) =
      (if xs.any id then [true] else []) ++ (if ys.any id then [false] else []) := by
  have hfront : ∀ b ∈ (ready xs).map fun i => decide (i < xs.length), b = true := by
    intro b hb
    obtain ⟨i, hi, rfl⟩ := List.mem_map.1 hb
    exact decide_eq_true (lt_of_mem_ready hi)
  have hback : ∀ b ∈ ((ready ys).map (· + xs.length)).map fun i => decide (i < xs.length), b = false := by
    intro b hb
    obtain ⟨i, hi, rfl⟩ := List.mem_map.1 hb
    obtain ⟨j, -, rfl⟩ := List.mem_map.1 hi
    exact decide_eq_false (Nat.not_lt.2 (Nat.le_add_left _ _))
  -- no answer of the one side is one of the other
  have hapart : ∀ front back : List Bool, (∀ b ∈ front, b = true) → (∀ b ∈ back, b = false) →
      back.removeAll front = back := by
    intro front back hf hb
    apply List.filter_eq_self.2
    intro b hmem
    have hnot : ¬ b ∈ front := fun h => absurd ((hb b hmem).symm.trans (hf b h)) Bool.false_ne_true
    simp only [List.elem_eq_mem, decide_eq_false hnot, Bool.not_false]
  rw [standsBefore, ready_append, List.map_append, List.eraseDups_append, hapart _ _ hfront hback,
    eraseDups_of_all hfront, eraseDups_of_all hback, List.isEmpty_map, List.isEmpty_map, List.isEmpty_map,
    isEmpty_ready, isEmpty_ready]
  cases xs.any id with
  | true =>
    cases ys.any id with
    | true => rfl
    | false => rfl
  | false =>
    cases ys.any id with
    | true => rfl
    | false => rfl

end

namespace Token

variable {σ α : Type} {ended before after : σ → Bool} {a b c t : Token σ}

/-! ## What waits answer

With that, the answers of each kind of wait are listed by whether its tokens are cancelled. -/

/-- A token is cancelled if one of its scopes has ended. -/
theorem any_map_scopes (ended : σ → Bool) (t : Token σ) :
    (t.scopes.map ended).any id = t.cancelled ended :=
  List.any_map

/-- A wait for a value may end because the token is cancelled, or with what the channel offers. -/
theorem receive_eq (ended : σ → Bool) (t : Token σ) (ch : Channel α) :
    t.receive ended ch = (if t.cancelled ended then [.cancelled] else []) ++ offered ch := by
  have hlength : t.scopes.length = (t.scopes.map ended).length := (List.length_map ended).symm
  have hchannel : [ch.isReadable].any id = ch.isReadable := Bool.or_false _
  rw [receive, hlength, standsBefore_append, any_map_scopes, hchannel, List.flatMap_append]
  -- a channel that cannot be read offers nothing
  have hoffered : ch.isReadable = false → offered ch = [] := by
    intro hnot
    obtain ⟨values, closed⟩ := ch
    cases values with
    | nil => exact if_neg (Bool.eq_false_iff.1 hnot)
    | cons v rest => exact absurd hnot.symm Bool.false_ne_true
  congr 1
  · cases t.cancelled ended with
    | true => rfl
    | false => rfl
  · cases hreadable : ch.isReadable with
    | true => exact List.append_nil _
    | false => exact (hoffered hreadable).symm

/-- A race may be won by each token that is cancelled. -/
theorem race_eq (ended : σ → Bool) (a b : Token σ) :
    a.race ended b =
      (if a.cancelled ended then [true] else []) ++ (if b.cancelled ended then [false] else []) := by
  unfold race
  dsimp only
  split
  · -- neither token has a scope
    rename_i hempty
    obtain ⟨ha, hb⟩ := List.append_eq_nil_iff.1 (List.isEmpty_iff.1 hempty)
    rw [cancelled, cancelled, ha, hb]
    rfl
  · have hlength : a.scopes.length = (a.scopes.map ended).length := (List.length_map ended).symm
    rw [List.map_append, hlength, standsBefore_append, any_map_scopes, any_map_scopes]

/-- Under a live token a wait gets what the channel offers. -/
theorem receive_of_live (h : t.cancelled ended = false) (ch : Channel α) :
    t.receive ended ch = offered ch := by
  rw [receive_eq, h]
  rfl

/-- A race is won by the one of two tokens that is cancelled. -/
theorem race_of_one (h : a.cancelled ended ≠ b.cancelled ended) :
    a.race ended b = [a.cancelled ended] := by
  rw [race_eq]
  cases ha : a.cancelled ended with
  | true =>
    rw [ha] at h
    rw [Bool.eq_false_iff.2 (Ne.symm h)]
    rfl
  | false =>
    rw [ha] at h
    rw [eq_true_of_ne_false (Ne.symm h)]
    rfl

/-- A sleep is cut short if the token is cancelled when it begins.  If the token is cancelled in the
    meantime, it may be cut short or not. -/
theorem sleepThrough_eq (before after : σ → Bool) (t : Token σ) :
    t.sleepThrough before after =
      if t.cancelled before then [false] else if t.cancelled after then [false, true] else [true] := by
  unfold sleepThrough
  rw [isEmpty_ready, isEmpty_ready, any_map_scopes, any_map_scopes, Bool.not_not, Bool.not_not]
  split
  · rename_i hempty
    have hnone : ∀ ended : σ → Bool, ¬ t.cancelled ended = true := by
      intro ended
      rw [cancelled, List.isEmpty_iff.1 hempty]
      exact Bool.false_ne_true
    rw [if_neg (hnone before), if_neg (hnone after)]
  · rfl

/-- Under a token that is cancelled, a sleep is cut short. -/
theorem sleepThrough_of_cancelled (h : t.cancelled before = true) (after : σ → Bool) :
    t.sleepThrough before after = [false] := by
  rw [sleepThrough_eq, if_pos h]

/-- Under a token that stays live, it lasts. -/
theorem sleepThrough_of_live (hbefore : t.cancelled before = false) (hafter : t.cancelled after = false) :
    t.sleepThrough before after = [true] := by
  rw [sleepThrough_eq, if_neg (Bool.eq_false_iff.1 hbefore), if_neg (Bool.eq_false_iff.1 hafter)]

/-! ## Tokens that cannot be told apart -/

/-- Whether two tokens answer alike whatever has ended, whichever channel they wait for and whichever token
    they race with. -/
structure Alike (a b : Token σ) : Prop where
  cancelled : ∀ ended : σ → Bool, a.cancelled ended = b.cancelled ended
  sleep : ∀ before after : σ → Bool, a.sleepThrough before after = b.sleepThrough before after
  receive : ∀ (ended : σ → Bool) (α : Type) (ch : Channel α), a.receive ended ch = b.receive ended ch
  raceFirst : ∀ (ended : σ → Bool) (other : Token σ), a.race ended other = b.race ended other
  raceSecond : ∀ (ended : σ → Bool) (other : Token σ), other.race ended a = other.race ended b

/-- To be cancelled in the same circumstances is all there is to a token. -/
theorem alike_of_cancelled (h : ∀ ended : σ → Bool, a.cancelled ended = b.cancelled ended) : Alike a b where
  cancelled := h
  sleep before after := by rw [sleepThrough_eq, sleepThrough_eq, h before, h after]
  receive ended α ch := by rw [receive_eq, receive_eq, h ended]
  raceFirst ended other := by rw [race_eq, race_eq, h ended]
  raceSecond ended other := by rw [race_eq, race_eq, h ended]

/-- The order in which tokens are put together does not matter. -/
theorem merge_assoc_alike (a b c : Token σ) : Alike ((a.merge b).merge c) (a.merge (b.merge c)) :=
  alike_of_cancelled fun ended => by simp only [cancelled_merge, Bool.or_assoc]

/-- Of two tokens that are merged it does not matter which one comes first. -/
theorem merge_comm_alike (a b : Token σ) : Alike (a.merge b) (b.merge a) :=
  alike_of_cancelled fun ended => by rw [cancelled_merge, cancelled_merge, Bool.or_comm]

/-- A token merged with itself is the token. -/
theorem merge_self_alike (a : Token σ) : Alike (a.merge a) a :=
  alike_of_cancelled fun ended => by rw [cancelled_merge, Bool.or_self]

/-- The token that is never cancelled adds nothing. -/
theorem merge_never_alike (a : Token σ) : Alike (a.merge never) a :=
  alike_of_cancelled fun ended => by rw [cancelled_merge, cancelled_never, Bool.or_false]

end Token

/-! ## Where a token comes from

The state only keeps the scopes of a token.  Which owners they were merged from is read off the moves,
and each token made so far is described by its tree. -/

/-- The tree of merges that a token comes from. -/
inductive Origin where
  | never
  | scope (c : Nat)
  | merged (a b : Origin)
  deriving DecidableEq, Repr

namespace Origin

/-- Whether a scope is at a leaf of the tree. -/
def Contributes (c : Nat) : Origin → Prop
  | never => False
  | scope d => d = c
  | merged a b => a.Contributes c ∨ b.Contributes c

/-- The trees of all tokens after one more move. -/
def grow (origins : List Origin) : CancellerMove → List Origin
  | .token c => origins ++ [scope c]
  | .never => origins ++ [never]
  | .merge a b => origins ++ [merged (origins.getD a never) (origins.getD b never)]
  | .make | .cancel _ | .drop _ => origins

/-- The trees of the tokens that some moves bring up. -/
def ofMoves (moves : List CancellerMove) : List Origin := moves.foldl grow []

/-- Whether a token is cancelled exactly when one of the scopes has ended that a tree has at its leaves. -/
def Describes (o : Origin) (t : Token Nat) : Prop :=
  ∀ ended : Nat → Bool, t.cancelled ended = true ↔ ∃ c, o.Contributes c ∧ ended c = true

/-- No scope cancels the token that is never cancelled. -/
theorem describes_never : never.Describes Token.never := by
  intro ended
  rw [Token.cancelled_never]
  exact ⟨fun h => absurd h Bool.false_ne_true, fun ⟨_, h, _⟩ => h.elim⟩

/-- The token of one scope. -/
theorem describes_scope (c : Nat) : (scope c).Describes (Token.ofScope c) := by
  intro ended
  rw [Token.cancelled_ofScope]
  exact ⟨fun h => ⟨c, rfl, h⟩, fun ⟨_, hc, h⟩ => hc ▸ h⟩

/-- A merged token is described by the merged tree. -/
theorem Describes.merge {o p : Origin} {t u : Token Nat} (ho : o.Describes t) (hp : p.Describes u) :
    (merged o p).Describes (t.merge u) := by
  intro ended
  rw [Token.cancelled_merge, Bool.or_eq_true, ho ended, hp ended]
  constructor
  · rintro (⟨c, hc, h⟩ | ⟨c, hc, h⟩)
    · exact ⟨c, Or.inl hc, h⟩
    · exact ⟨c, Or.inr hc, h⟩
  · rintro ⟨c, hc | hc, h⟩
    · exact Or.inl ⟨c, hc, h⟩
    · exact Or.inr ⟨c, hc, h⟩

/-- Where the tokens are described, each of them is, under the number that it has. -/
theorem describes_of_getElem? {origins : List Origin} {tokens : List (Token Nat)} {i : Nat} {t : Token Nat}
    (h : List.Forall₂ Describes origins tokens) (hi : tokens[i]? = some t) :
    (origins.getD i never).Describes t := by
  induction h generalizing i with
  | nil => exact absurd hi (Option.some_ne_none t).symm
  | cons hhead _ ih =>
    cases i with
    | zero =>
      obtain rfl := Option.some.inj hi
      exact hhead
    | succ i => exact ih hi

end Origin

namespace CancellerMove

/-- Whether a move ends a scope. -/
def Ends (c : Nat) (m : CancellerMove) : Prop := m = .cancel c ∨ m = .drop c

end CancellerMove

namespace Cancellers

open Origin (Describes)
open CancellerMove (Ends)

variable {s s' : Cancellers} {m : CancellerMove} {moves more : List CancellerMove}

/-! ## One move

A move makes an owner or a token, or ends a scope.  Each of these keeps the description. -/

/-- A new owner ends nothing. -/
theorem hasEnded_make (s : Cancellers) (c : Nat) :
    ({ s with owners := s.owners ++ [some ⟨true⟩] } : Cancellers).hasEnded c = s.hasEnded c := by
  unfold hasEnded
  dsimp only
  -- a number that is older than the new owner's, its own, or one that nobody has
  rcases Nat.lt_trichotomy c s.owners.length with hold | rfl | hbeyond
  · rw [List.getElem?_append_left hold]
  · rw [List.getElem?_concat_length, List.getElem?_eq_none (Nat.le_refl _)]
    rfl
  · rw [List.getElem?_eq_none (Nat.le_of_lt hbeyond), List.getElem?_eq_none]
    rw [List.length_append, List.length_singleton]
    exact hbeyond

/-- When an owner gives its sending side up, with or without itself, its scope ends and no other. -/
theorem hasEnded_set {d : Nat} {owner : Canceller} (h : s.owner? d = some owner) {left : Option Canceller}
    (hleft : ∀ k, left = some k → k.holdsSender = false) (c : Nat) :
    ({ s with owners := s.owners.set d left } : Cancellers).hasEnded c = true ↔
      s.hasEnded c = true ∨ d = c := by
  have hd : d < s.owners.length := by
    by_contra hnot
    rw [owner?, List.getElem?_eq_none (Nat.le_of_not_lt hnot)] at h
    exact absurd h (Option.some_ne_none owner).symm
  unfold hasEnded
  dsimp only
  by_cases hdc : d = c
  · subst hdc
    rw [List.getElem?_set_self hd]
    refine ⟨fun _ => Or.inr rfl, fun _ => ?_⟩
    cases left with
    | none => rfl
    | some k => exact congrArg (!·) (hleft k rfl)
  · rw [List.getElem?_set_ne hdc]
    exact ⟨Or.inl, fun h => h.resolve_right hdc⟩

/-- A scope has ended after a move if it had ended before or if the move ends it. -/
theorem hasEnded_of_move (h : s.move m = some s') (c : Nat) :
    s'.hasEnded c = true ↔ s.hasEnded c = true ∨ m.Ends c := by
  -- a move that ends nothing is no exception either
  have hsame : s'.hasEnded c = s.hasEnded c → ¬ m.Ends c →
      (s'.hasEnded c = true ↔ s.hasEnded c = true ∨ m.Ends c) := by
    intro heq hnot
    rw [heq]
    exact ⟨Or.inl, fun h => h.resolve_right hnot⟩
  cases m with
  | make =>
    obtain rfl := Option.some.inj h
    exact hsame (hasEnded_make s c) (by simp [Ends])
  | token d =>
    obtain ⟨_, -, rfl⟩ := Option.map_eq_some_iff.1 h
    exact hsame rfl (by simp [Ends])
  | never =>
    obtain rfl := Option.some.inj h
    exact hsame rfl (by simp [Ends])
  | merge a b =>
    obtain ⟨first, -, h⟩ := Option.bind_eq_some_iff.1 h
    obtain ⟨second, -, h⟩ := Option.bind_eq_some_iff.1 h
    obtain rfl := Option.some.inj h
    exact hsame rfl (by simp [Ends])
  | cancel d =>
    obtain ⟨owner, howner, rfl⟩ := Option.map_eq_some_iff.1 h
    rw [hasEnded_set howner (fun k hk => by rw [← Option.some.inj hk])]
    simp [Ends]
  | drop d =>
    obtain ⟨owner, howner, rfl⟩ := Option.map_eq_some_iff.1 h
    rw [hasEnded_set howner (fun k hk => absurd hk (Option.some_ne_none k).symm)]
    simp [Ends]

/-- A move keeps the tokens described by the trees that they come from. -/
theorem describes_of_move {origins : List Origin} (h : s.move m = some s')
    (hd : List.Forall₂ Describes origins s.tokens) :
    List.Forall₂ Describes (Origin.grow origins m) s'.tokens := by
  -- a new token comes with its tree, at the end of both lists
  have hadd : ∀ {o : Origin} {t : Token Nat}, o.Describes t →
      List.Forall₂ Describes (origins ++ [o]) (s.tokens ++ [t]) := fun ho =>
    List.rel_append hd (List.Forall₂.cons ho List.Forall₂.nil)
  cases m with
  | make =>
    obtain rfl := Option.some.inj h
    exact hd
  | token c =>
    obtain ⟨_, -, rfl⟩ := Option.map_eq_some_iff.1 h
    exact hadd (Origin.describes_scope c)
  | never =>
    obtain rfl := Option.some.inj h
    exact hadd Origin.describes_never
  | merge a b =>
    obtain ⟨first, hfirst, h⟩ := Option.bind_eq_some_iff.1 h
    obtain ⟨second, hsecond, h⟩ := Option.bind_eq_some_iff.1 h
    obtain rfl := Option.some.inj h
    exact hadd ((Origin.describes_of_getElem? hd hfirst).merge (Origin.describes_of_getElem? hd hsecond))
  | cancel c =>
    obtain ⟨_, -, rfl⟩ := Option.map_eq_some_iff.1 h
    exact hd
  | drop c =>
    obtain ⟨_, -, rfl⟩ := Option.map_eq_some_iff.1 h
    exact hd

/-! ## Runs

By induction on the moves, a scope has ended when its owner ended it, and a token is cancelled when
one of the scopes in its tree has ended. -/

/-- A scope has ended after some moves if it had ended before or if one of them ends it. -/
theorem hasEnded_of_moves (h : moves.foldlM move s = some s') (c : Nat) :
    s'.hasEnded c = true ↔ s.hasEnded c = true ∨ ∃ m ∈ moves, m.Ends c := by
  induction moves generalizing s with
  | nil =>
    obtain rfl := Option.some.inj h
    simp
  | cons m moves ih =>
    rw [List.foldlM_cons] at h
    obtain ⟨next, hnext, h⟩ := Option.bind_eq_some_iff.1 h
    rw [ih h, hasEnded_of_move hnext, or_assoc, List.exists_mem_cons_iff]

/-- All moves of a run keep the tokens described. -/
theorem describes_of_moves {origins : List Origin} (h : moves.foldlM move s = some s')
    (hd : List.Forall₂ Describes origins s.tokens) :
    List.Forall₂ Describes (moves.foldl Origin.grow origins) s'.tokens := by
  induction moves generalizing s origins with
  | nil =>
    obtain rfl := Option.some.inj h
    exact hd
  | cons m moves ih =>
    rw [List.foldlM_cons] at h
    obtain ⟨next, hnext, h⟩ := Option.bind_eq_some_iff.1 h
    exact ih h (describes_of_move hnext hd)

/-- A scope has ended when its owner has cancelled it or has been dropped. -/
theorem hasEnded_iff (h : run moves = some s) (c : Nat) :
    s.hasEnded c = true ↔ .cancel c ∈ moves ∨ .drop c ∈ moves := by
  rw [hasEnded_of_moves h]
  constructor
  · rintro (hnone | ⟨m, hm, rfl | rfl⟩)
    · exact absurd hnone Bool.false_ne_true
    · exact Or.inl hm
    · exact Or.inr hm
  · rintro (hm | hm)
    · exact Or.inr ⟨_, hm, Or.inl rfl⟩
    · exact Or.inr ⟨_, hm, Or.inr rfl⟩

/-- A token that is cancelled stays cancelled. -/
theorem cancelled_of_more (h : run moves = some s) (hmore : run (moves ++ more) = some s') (t : Token Nat) :
    t.cancelled s.hasEnded = true → t.cancelled s'.hasEnded = true := by
  refine Token.cancelled_mono (fun c hc => ?_) t
  rw [hasEnded_iff hmore]
  rcases (hasEnded_iff h c).1 hc with hm | hm
  · exact Or.inl (List.mem_append_left _ hm)
  · exact Or.inr (List.mem_append_left _ hm)

/-- **A token is cancelled when a scope it comes from has ended**: in every run of owners and tokens, each
    token is cancelled exactly if some owner at the leaves of its tree of merges has cancelled or has been
    dropped, and it stays so.  A sleep under a token that is cancelled is cut short, and one under a token
    that stays live lasts.  Under a live token a wait gets the oldest value of a channel, or learns that
    the channel is closed and empty.  A race is won by the one of two tokens that is cancelled.  What
    tokens answer does not tell in which order, in which shape or how often they were merged. -/
theorem cancelled_when_ended (h : run moves = some s) :
    List.Forall₂ (fun o t => t.cancelled s.hasEnded = true ↔
        ∃ c, o.Contributes c ∧ (.cancel c ∈ moves ∨ .drop c ∈ moves)) (Origin.ofMoves moves) s.tokens ∧
      (∀ more s', run (moves ++ more) = some s' → ∀ t : Token Nat,
        (t.cancelled s.hasEnded = true → t.cancelled s'.hasEnded = true) ∧
          (t.cancelled s.hasEnded = true → t.sleepThrough s.hasEnded s'.hasEnded = [false]) ∧
          (t.cancelled s'.hasEnded = false → t.sleepThrough s.hasEnded s'.hasEnded = [true])) ∧
      (∀ t : Token Nat, t.cancelled s.hasEnded = false → ∀ (α : Type) (closed : Bool),
        (∀ (v : α) (rest : List α),
          t.receive s.hasEnded ⟨v :: rest, closed⟩ = [.ready v ⟨rest, closed⟩]) ∧
          t.receive s.hasEnded (⟨[], true⟩ : Channel α) = [.closed]) ∧
      (∀ a b : Token Nat, a.cancelled s.hasEnded ≠ b.cancelled s.hasEnded →
        a.race s.hasEnded b = [a.cancelled s.hasEnded]) ∧
      ∀ a b c : Token Nat, Token.Alike ((a.merge b).merge c) (a.merge (b.merge c)) ∧
        Token.Alike (a.merge b) (b.merge a) ∧ Token.Alike (a.merge a) a ∧
        Token.Alike (a.merge Token.never) a := by
  refine ⟨?_, fun more s' hmore t => ?_, fun t ht α closed => ⟨fun v rest => ?_, ?_⟩,
    fun a b hone => Token.race_of_one hone, fun a b c => ?_⟩
  · -- the trees are those of the moves, and what has ended are the owners that have cancelled or been
    -- dropped
    have hdescribes := describes_of_moves h List.Forall₂.nil
    refine hdescribes.imp fun o t ho => ?_
    rw [ho s.hasEnded]
    simp only [hasEnded_iff h]
  · have hstays := cancelled_of_more h hmore t
    refine ⟨hstays, fun ht => Token.sleepThrough_of_cancelled ht s'.hasEnded, fun ht => ?_⟩
    have hbefore : t.cancelled s.hasEnded = false :=
      Bool.eq_false_iff.2 fun hb => absurd (ht.symm.trans (hstays hb)) Bool.false_ne_true
    exact Token.sleepThrough_of_live hbefore ht
  · exact Token.receive_of_live ht _
  · exact Token.receive_of_live ht _
  · exact ⟨Token.merge_assoc_alike a b c, Token.merge_comm_alike a b, Token.merge_self_alike a,
      Token.merge_never_alike a⟩

/-- Two owners, of which the second cancels twice and is dropped, and a token of both that was merged with
    the one that is never cancelled, and with itself; a third owner comes and goes during a sleep. -/
theorem cancelled_when_ended_of_merges :
    let moves : List CancellerMove := [.make, .make, .token 0, .never, .merge 0 1, .token 1, .merge 2 3,
      .merge 4 4, .cancel 1, .cancel 1, .drop 1]
    let live : Token Nat := ⟨[0]⟩
    let both : Token Nat := ⟨[0, 1, 0, 1]⟩
    let s : Cancellers := ⟨[some ⟨true⟩, none], [live, ⟨[]⟩, ⟨[0]⟩, ⟨[1]⟩, ⟨[0, 1]⟩, both]⟩
    let s' : Cancellers := { s with owners := [some ⟨true⟩, none, some ⟨false⟩] }
    run moves = some s ∧ run (moves ++ [.make, .cancel 2]) = some s' ∧
      both.cancelled s'.hasEnded = true ∧ both.sleepThrough s.hasEnded s'.hasEnded = [false] ∧
      live.sleepThrough s.hasEnded s'.hasEnded = [true] ∧
      live.receive s.hasEnded (⟨[7], true⟩ : Channel Nat) = [.ready 7 ⟨[], true⟩] ∧
      live.race s.hasEnded both = [false] ∧ both.race s.hasEnded live = [true] ∧
      Token.Alike (both.merge live) (live.merge both) := by
  intro moves live both s s'
  have hrun : run moves = some s := by decide
  have hmore : run (moves ++ [.make, .cancel 2]) = some s' := by decide
  obtain ⟨-, hsleep, hreceive, hrace, hmerge⟩ := cancelled_when_ended hrun
  obtain ⟨hstays, hcut, -⟩ := hsleep _ s' hmore both
  obtain ⟨-, -, hlasts⟩ := hsleep _ s' hmore live
  exact ⟨hrun, hmore, hstays (by decide), hcut (by decide), hlasts (by decide),
    (hreceive live (by decide) Nat true).1 7 [], hrace live both (by decide), hrace both live (by decide),
    (hmerge both live live).2.1⟩

end Cancellers
end TunnelBoard
