import TunnelBoard.Proofs.Loop.Refresh
import TunnelBoard.Proofs.Loop.Trace
import TunnelBoard.Proofs.Session.Leaves
/-
  The commands that a loop is given, and the effects that it carries out.

  A loop flattens each command and carries out its effects one by one, while the rest of the world goes
  on beside it.  Only two moves touch the list of what is still to be carried out: handling a message,
  which happens when the list is empty and puts the effects of the answer there, and carrying out the
  first of them.  So what has been carried out, followed by what is left, is what was asked for
  (`Obedient`), and it does not matter how the commands were put into batches.

  The one thing that comes between is a store that breaks down with the loop: what is left then is given
  up.  Otherwise a loop that runs can go on to the end of its list by moves of its own
  (`Obedient.exists_all`).
-/

namespace TunnelBoard

/-- Whether it is by this move that a loop carries out what it was asked for. -/
def Move.isOwn : Move → Bool
  | .place | .perform => true
  | _ => false

namespace Loop

/-- The commands that a move gives to the loop. -/
def commands (l : Loop) : Move → List (Command Effect)
  | .handle => l.queue.head?.toList.map fun m => (l.session.update m).2
  | _ => []

/-- The effects that a move carries out. -/
def carriedOut (l : Loop) : Move → List Effect
  | .perform => l.effects.head?.toList
  | _ => []

/-- What becomes of a loop that carries out the effect in front of some others: they are left, or the loop
    breaks down. -/
def HasLeft (rest : List Effect) (l : Loop) : Prop :=
  (l.effects = rest ∧ l.stage = .running) ∨ (l.effects = [] ∧ l.stage = .closed)

variable {l l' : Loop} {m : Move} {e : Effect} {rest asked done : List Effect}

/-! ## What a move does to the list of effects -/

/-- All other moves leave the list as it is, and none of them brings a closed loop back. -/
theorem effects_of_step (h : l.step m = some l') (hhandle : m ≠ .handle) (hperform : m ≠ .perform) :
    l'.effects = l.effects ∧
      (l'.stage = .running ∨ l'.stage = .ending → l.stage = .running ∨ l.stage = .ending) := by
  by_cases hp : m.isProper
  · have hturn : l.core.Turn m l'.core := turn_of_step hp h
    have heffects : l'.effects = l'.core.effects := rfl
    have hstage : l'.stage = l'.core.stage := rfl
    rw [heffects, hstage]
    generalize l'.core = c at hturn
    cases hturn with
    | handled => exact absurd rfl hhandle
    | performed | brokeDown | began | asked => exact absurd rfl hperform
    | aside | endedOutside | appended | announced | received | failed | woke | lapsed | posted
      | dropped => exact ⟨rfl, id⟩
    | left stage => exact ⟨rfl, fun _ => Or.inl stage⟩
    | closed stage => exact ⟨rfl, fun _ => Or.inr stage⟩
    | finished =>
      refine ⟨rfl, ?_⟩
      rintro (hs | hs)
      · cases hs
      · cases hs
  · -- a message that the loop could only have got from its own waits
    cases m with
    | receive m =>
      simp only [step, receive] at h
      split at h
      · cases h
        exact ⟨rfl, id⟩
      · cases h
        exact ⟨rfl, id⟩
      · cases h
      · cases h
    | _ => exact absurd rfl hp

/-- Carrying out the first effect takes it off the list, or the loop breaks down. -/
theorem effects_of_performNext (h : l.performNext = some l') :
    ∃ e rest, l.effects = e :: rest ∧ l.stage = .running ∧ l'.HasLeft rest := by
  have hturn : l.core.Turn .perform l'.core := turn_of_performNext h
  have heffects : l'.effects = l'.core.effects := rfl
  have hstage : l'.stage = l'.core.stage := rfl
  unfold HasLeft
  rw [heffects, hstage]
  generalize l'.core = c at hturn
  cases hturn with
  | aside aside => cases aside
  | performed effects stage => exact ⟨_, _, effects, stage, Or.inl ⟨rfl, stage⟩⟩
  | began effects stage => exact ⟨_, _, effects, stage, Or.inl ⟨rfl, stage⟩⟩
  | asked effects stage => exact ⟨_, _, effects, stage, Or.inl ⟨rfl, stage⟩⟩
  | brokeDown effects stage => exact ⟨_, _, effects, stage, Or.inr ⟨rfl, rfl⟩⟩

/-- Handling a message puts the effects of the answer on the list, which was empty. -/
theorem effects_of_handleNext (h : l.handleNext = some l') :
    l.effects = [] ∧ l.stage = .running ∧
      l'.effects = (commands l .handle).flatMap Command.flatten := by
  have hturn : l.core.Turn .handle l'.core := turn_of_handleNext h
  have heffects : l'.effects = l'.core.effects := rfl
  rw [heffects]
  generalize l'.core = c at hturn
  cases hturn with
  | aside aside => cases aside
  | @handled m rest queue stage effects =>
    have hqueue : l.queue = m :: rest := queue
    refine ⟨effects, stage, ?_⟩
    rw [commands, hqueue]
    exact (List.flatMap_singleton _ _).symm

/-! ## What was asked for and what was done

The list of what is still to be carried out is kept between the two, so that the sum of what is done
and what is left is what was asked for.  Each of the two moves that touch the list keeps the sum, and
with it every run does. -/

/-- The loop was asked for some effects, and has carried out others: they are the first of those that it
    was asked for, and as long as it takes messages the rest is still to be carried out. -/
structure Obedient (asked done : List Effect) (l : Loop) : Prop where
  upTo : done ++ l.effects <+: asked
  whole : l.stage = .running ∨ l.stage = .ending → done ++ l.effects = asked

namespace Obedient

/-- A loop that has done nothing yet was asked for what is on its list. -/
theorem begun (l : Loop) : l.Obedient l.effects [] := ⟨List.prefix_rfl, fun _ => rfl⟩

/-- A message is handled when all that was asked for is done, so what its answer asks for follows at
    the end. -/
theorem handle (h : l.Obedient asked done) (hm : l.handleNext = some l') :
    l'.Obedient (asked ++ (commands l .handle).flatMap Command.flatten) done := by
  obtain ⟨hnone, hstage, heffects⟩ := effects_of_handleNext hm
  have hall : done = asked := by
    have hwhole := h.whole (Or.inl hstage)
    rwa [hnone, List.append_nil] at hwhole
  have hnew : done ++ l'.effects = asked ++ (commands l .handle).flatMap Command.flatten := by
    rw [hall, heffects]
  exact ⟨hnew ▸ List.prefix_rfl, fun _ => hnew⟩

/-- The effect that is carried out is the first of those that are left.  A loop that breaks down with
    it has nothing left, and takes no messages either. -/
theorem perform (h : l.Obedient asked done) (hm : l.performNext = some l') :
    l'.Obedient asked (done ++ carriedOut l .perform) := by
  obtain ⟨e, rest, heffects, hstage, hleft⟩ := effects_of_performNext hm
  have hone : carriedOut l .perform = [e] := by
    rw [carriedOut, heffects]
    rfl
  -- while the loop runs, all that is left is on the list, the effect in front included
  have hwhole : (done ++ [e]) ++ rest = asked := by
    rw [List.append_assoc, ← h.whole (Or.inl hstage), heffects]
    rfl
  rw [hone]
  rcases hleft with ⟨hrest, -⟩ | ⟨hnone, hclosed⟩
  · rw [← hrest] at hwhole
    exact ⟨hwhole ▸ List.prefix_rfl, fun _ => hwhole⟩
  · refine ⟨?_, ?_⟩
    · rw [hnone, List.append_nil, ← hwhole]
      exact List.prefix_append _ _
    · rw [hclosed]
      rintro (hs | hs)
      · cases hs
      · cases hs

/-- **Every move** keeps the loop obedient. -/
theorem step (h : l.Obedient asked done) (hm : l.step m = some l') :
    l'.Obedient (asked ++ (commands l m).flatMap Command.flatten) (done ++ carriedOut l m) := by
  by_cases hhandle : m = .handle
  · subst hhandle
    have hnext := h.handle hm
    rwa [← List.append_nil done] at hnext
  by_cases hperform : m = .perform
  · subst hperform
    have hnext := h.perform hm
    rwa [← List.append_nil asked] at hnext
  · obtain ⟨heffects, hstage⟩ := effects_of_step hm hhandle hperform
    have hcommands : commands l m = [] := by
      cases m with
      | handle => exact absurd rfl hhandle
      | _ => rfl
    have hdone : carriedOut l m = [] := by
      cases m with
      | perform => exact absurd rfl hperform
      | _ => rfl
    rw [hcommands, hdone, List.flatMap_nil, List.append_nil, List.append_nil]
    exact ⟨heffects ▸ h.upTo, fun hs => heffects ▸ h.whole (hstage hs)⟩

/-- So what a run was asked for and what it did keep in step, from its first move to its last. -/
theorem run (h : l.Obedient asked done) {moves : List Move} (hr : l.run moves = some l') :
    l'.Obedient (asked ++ (trace commands l moves).flatMap Command.flatten)
      (done ++ trace carriedOut l moves) := by
  induction moves generalizing l asked done with
  | nil =>
    cases hr
    rw [trace, trace, List.flatMap_nil, List.append_nil, List.append_nil]
    exact h
  | cons m moves ih =>
    obtain ⟨l₁, hm, hrest⟩ := Option.bind_eq_some_iff.1 hr
    have hnext := ih (h.step hm) hrest
    rw [List.append_assoc, List.append_assoc, ← List.flatMap_append] at hnext
    simpa only [trace, hm] using hnext

end Obedient

/-! ## All of it is carried out

A loop that runs is never stuck with effects on its list: the next one is carried out, or placed first
if it is a request to save.  So by induction on the list there are moves of the loop's own that come
to the end of it. -/

/-- A loop that runs carries out the next effect, unless something is to be placed for it first. -/
theorem exists_performNext (hs : l.stage = .running) (he : l.effects = e :: rest)
    (hplaced : l.mustPlace e = false) :
    ∃ l', l.performNext = some l' ∧ l'.HasLeft rest := by
  have hnext : l.performNext = some ({ l with effects := rest }.perform e) := by
    unfold performNext
    rw [hs, he]
    simp [hplaced]
  obtain ⟨e', rest', he', -, hleft⟩ := effects_of_performNext hnext
  cases he.symm.trans he'
  exact ⟨_, hnext, hleft⟩

/-- A loop that runs can carry out the next effect. -/
theorem exists_next (hs : l.stage = .running) (he : l.effects = e :: rest) :
    ∃ own l', (∀ m ∈ own, m.isOwn) ∧ l.run own = some l' ∧ l'.HasLeft rest := by
  cases hplace : l.mustPlace e with
  | false =>
    obtain ⟨l', hnext, hleft⟩ := exists_performNext hs he hplace
    refine ⟨[.perform], l', by decide, ?_, hleft⟩
    show (l.performNext).bind _ = _
    rw [hnext]
    rfl
  | true =>
    -- preferences go into the slot of the writer first
    cases e with
    | savePreferences p =>
      have hput : l.place = some { l with writer := l.writer.put p, placed := true } := by
        unfold place
        rw [hs, he]
        simp [hplace]
      obtain ⟨l', hnext, hleft⟩ :=
        exists_performNext (l := { l with writer := l.writer.put p, placed := true }) hs he
          (by simp [mustPlace])
      refine ⟨[.place, .perform], l', by decide, ?_, hleft⟩
      show (l.place).bind _ = _
      rw [hput]
      show (Loop.performNext _).bind _ = _
      rw [hnext]
      rfl
    | _ => cases hplace

/-- A loop that runs can come to the end of its list, unless it breaks down on the way. -/
theorem exists_end (hs : l.stage = .running) :
    ∃ own l', (∀ m ∈ own, m.isOwn) ∧ l.run own = some l' ∧ l'.effects = [] ∧
      (l'.stage = .running ∨ l'.stage = .closed) := by
  generalize he : l.effects = es
  induction es generalizing l with
  | nil => exact ⟨[], l, fun m hm => absurd hm List.not_mem_nil, rfl, he, Or.inl hs⟩
  | cons e rest ih =>
    obtain ⟨first, l₁, hfirst, hr₁, ⟨heffects, hstage⟩ | ⟨hnone, hclosed⟩⟩ := exists_next hs he
    · obtain ⟨own, l₂, hown, hr₂, hend⟩ := ih hstage heffects
      refine ⟨first ++ own, l₂, ?_, ?_, hend⟩
      · intro m hm
        rcases List.mem_append.1 hm with hm | hm
        · exact hfirst m hm
        · exact hown m hm
      · rw [run_append, hr₁]
        exact hr₂
    · exact ⟨first, l₁, hfirst, hr₁, hnone, Or.inr hclosed⟩

/-- The loop is given nothing by moves of its own. -/
theorem trace_commands_of_own {own : List Move} (h : ∀ m ∈ own, m.isOwn) (l : Loop) :
    trace commands l own = [] := by
  induction own generalizing l with
  | nil => rfl
  | cons m own ih =>
    have hnone : commands l m = [] := by
      have hm := h m List.mem_cons_self
      cases m with
      | place | perform => rfl
      | _ => cases hm
    rw [trace, hnone]
    split
    · exact ih (fun n hn => h n (List.mem_cons_of_mem _ hn)) _
    · rfl

/-- **A loop that runs can carry out all that it was asked for** by moves of its own, unless the store
    breaks down with it. -/
theorem Obedient.exists_all (h : l.Obedient asked done) (hs : l.stage = .running) :
    ∃ own l', (∀ m ∈ own, m.isOwn) ∧ l.run own = some l' ∧
      ((l'.stage = .running ∧ done ++ trace carriedOut l own = asked) ∨ l'.stage = .closed) := by
  obtain ⟨own, l', hown, hr, hnone, hstage⟩ := exists_end hs
  refine ⟨own, l', hown, hr, hstage.imp_left fun hstage => ⟨hstage, ?_⟩⟩
  have hall := (h.run hr).whole (Or.inl hstage)
  rwa [trace_commands_of_own hown, List.flatMap_nil, List.append_nil, hnone, List.append_nil] at hall

/-! ## Batches do not matter -/

/-- **Commands are carried out leaf by leaf, however they are put into batches.**

    * A command flattens to the leaves of its tree that are not empty, from left to right.  Empty commands
      and batches are not among them.
    * Several commands as one flatten to what they flatten to one after the other, and they are the empty
      command exactly if each of them is.
    * A command flattens to the effects that it groups, whether in batches or as several commands in one.
    * A loop that is given a command, and then the answers to the messages that it handles, carries out the
      effects that these group, in their order, whatever happens in between.  As long as it takes messages
      the others are still to be carried out, and while it runs it can carry them out by moves of its own,
      unless the store breaks down with it. -/
theorem carried_out_however_nested :
    (∀ c : Command Effect, ∃ places, c.Leaves places ∧
      places.map c.at? = c.flatten.map fun e => some (.one e)) ∧
    (∀ cmds : List (Command Effect),
      (Command.ofList cmds).flatten = cmds.flatMap Command.flatten ∧
      (Command.ofList cmds = .none ↔ ∀ c ∈ cmds, c = .none)) ∧
    (∀ (es : List Effect) (c : Command Effect), Command.Groups es c ↔ c.flatten = es) ∧
    ∀ (l₀ l : Loop) (c : Command Effect) (moves : List Move) (ess : List (List Effect)),
      l₀.effects = c.flatten → l₀.run moves = some l →
      List.Forall₂ Command.Groups ess (c :: trace commands l₀ moves) →
      trace carriedOut l₀ moves ++ l.effects <+: ess.flatten ∧
      (l.stage = .running ∨ l.stage = .ending →
        trace carriedOut l₀ moves ++ l.effects = ess.flatten) ∧
      (l.stage = .running → ∃ own l', (∀ m ∈ own, m.isOwn) ∧ l.run own = some l' ∧
        ((l'.stage = .running ∧ trace carriedOut l₀ (moves ++ own) = ess.flatten) ∨
          l'.stage = .closed)) := by
  refine ⟨Command.exists_leaves, fun cmds => ⟨Command.flatten_ofList cmds, Command.ofList_eq_none_iff⟩,
    fun es c => Command.groups_iff, ?_⟩
  intro l₀ l c moves ess heffects hr hgroups
  -- the groups are the commands of the run, the first of which is on the list from the start
  have h : l.Obedient ess.flatten (trace carriedOut l₀ moves) := by
    have hrun := (Obedient.begun l₀).run hr
    rw [Command.flatten_of_groups hgroups, List.flatMap_cons, ← heffects]
    exact hrun
  refine ⟨h.upTo, h.whole, fun hs => ?_⟩
  obtain ⟨own, l', hown, hr', hend⟩ := h.exists_all hs
  rw [← trace_append carriedOut hr] at hend
  exact ⟨own, l', hown, hr', hend⟩

/-- An effect in a batch in a batch, between commands that come to nothing. -/
def nested : Command Effect :=
  .batch [.none, .batch [.one .clearScreen, .batch []], Command.ofList [.batch [], .none]]

/-- A loop that is given these batches carries out the one effect that is in them.  When the operator
    has picked a mode then, it carries out what the answer asks for. -/
theorem carried_out_however_nested_with_answer :
    let l₀ : Loop := { specimen with effects := nested.flatten }
    let moves := [.perform] ++ press .enter ++ [.perform]
    ∃ l, l₀.effects = nested.flatten ∧ l₀.run moves = some l ∧
      List.Forall₂ Command.Groups [[.clearScreen], [.emit (.modeSelected .tun)]]
        (nested :: trace commands l₀ moves) ∧
      l.stage = .running ∧
      trace carriedOut l₀ moves ++ l.effects = [.clearScreen, .emit (.modeSelected .tun)] := by
  intro l₀ moves
  have hend : ((l₀.run moves).any fun l => l.stage = .running) = true := by decide +kernel
  obtain ⟨l, hl, hstage⟩ := (Option.any_eq_true _ _).1 hend
  have hstage : l.stage = .running := of_decide_eq_true hstage
  have hflat : (nested :: trace commands l₀ moves).map Command.flatten =
      [[.clearScreen], [.emit (.modeSelected .tun)]] := by decide +kernel
  have hgroups : List.Forall₂ Command.Groups [[.clearScreen], [.emit (.modeSelected .tun)]]
      (nested :: trace commands l₀ moves) := by
    rw [← hflat, List.forall₂_map_left_iff, List.forall₂_same]
    exact fun c _ => Command.groups_flatten c
  have hdone := (carried_out_however_nested.2.2.2 l₀ l nested moves _ rfl hl hgroups).2.1
    (Or.inl hstage)
  exact ⟨l, rfl, hl, hgroups, hstage, hdone⟩

end Loop
end TunnelBoard
