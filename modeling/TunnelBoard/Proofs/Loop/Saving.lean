import TunnelBoard.Proofs.Loop.Margin
import TunnelBoard.Proofs.Loop.Refresh
import TunnelBoard.Proofs.Preferences.Writer
import TunnelBoard.Proofs.Session.Settings
/-
  The last change of a setting is what is stored.

  Between the key that changes a setting and the store, the preferences to be saved pass through four
  places: the effects of the loop, the slot of the writer, the writer's hands, and the store.  They
  keep their order on the way.  What gets lost is a request in the slot, and only when a newer one
  comes into its place; so the newest one is always there (`Behind`).

  Along a run we write down the changes (`changes`) and what is handed to the store (`saves`).  The
  account (`Entrusted`) says that the saves so far, with what the writer holds and what the loop has
  yet to place behind them, are behind the changes so far.  Every move keeps the account
  (`Entrusted.step`), and when all is done neither writer nor loop has anything left.

  A request is carried out in two moves, for it is placed in the slot first and the bell is rung after
  that, and the writer may be quick to take it in between.  So the account knows whether the request
  at the front has been placed already, and does not count it twice (`unplaced`).  A loop without a
  writer saves by itself, in order, and the writer holds nothing then.

  There are lemmas for each kind of move.  Those that have nothing to do with saving leave writer and
  requests as they are (`frame_of_step`); the others are placing, carrying out an effect, handling a
  message, a step of the writer, closing and finishing.
-/

namespace TunnelBoard

/-! ## What may get lost -/

/-- The list `rest` is what is left of `asked` when members were lost, but not the last one. -/
structure Behind {α : Type} (asked rest : List α) : Prop where
  sublist : rest.Sublist asked
  last : rest.getLast? = asked.getLast?

namespace Behind

variable {α : Type} {asked rest : List α}

/-- Nothing has been lost at first. -/
theorem refl (asked : List α) : Behind asked asked := ⟨.refl asked, rfl⟩

/-- What is asked for anew comes last on both sides. -/
theorem append (h : Behind asked rest) (more : List α) : Behind (asked ++ more) (rest ++ more) := by
  refine ⟨h.sublist.append_right more, ?_⟩
  rw [List.getLast?_append, List.getLast?_append, h.last]

/-- What has a newer one behind it may get lost. -/
theorem lose {before lost after : List α} {x : α} (h : Behind asked (before ++ (lost ++ x :: after))) :
    Behind asked (before ++ x :: after) := by
  have hless : (before ++ x :: after).Sublist (before ++ (lost ++ x :: after)) :=
    (List.sublist_append_right lost (x :: after)).append_left before
  refine ⟨hless.trans h.sublist, ?_⟩
  rw [← h.last, List.getLast?_append, List.getLast?_append, List.getLast?_append]
  -- the newer one is there, so the last one is not lost
  cases hlast : (x :: after).getLast? with
  | none => exact nomatch List.getLast?_eq_none_iff.1 hlast
  | some y => rfl

end Behind

/-- Whether a move has to do with saving. -/
def Move.isSaving : Move → Bool
  | .place | .perform | .handle | .stepWriter | .close | .finish => true
  | _ => false

namespace Loop

/-! ## Changes and saves -/

/-- The preferences to which a move changes the settings. -/
def changes (l : Loop) : Move → List Preferences
  | .handle => l.queue.head?.toList.flatMap fun m => (l.session.changed? m).toList
  | _ => []

/-- The preferences that a move hands to the store. -/
def saves (l : Loop) : Move → List Preferences
  | .stepWriter => l.writer.saves
  | .perform =>
    if l.writerLost || l.writer.task = .dead then (l.effects.head?.bind Effect.saved?).toList else []
  | _ => []

/-- The preferences that are still to be placed in the writer's slot. -/
def unplaced (l : Loop) : List Preferences :=
  (l.effects.filterMap Effect.saved?).drop (if l.placed then 1 else 0)

/-- Whether a loop still takes messages. -/
def IsTaking (l : Loop) : Prop := l.stage = .running ∨ l.stage = .ending

/-- The account of a run that began with `store`: the settings were changed to `asked`, and `saved` was
    handed to the store. -/
structure Entrusted (store : PreferencesStore) (asked saved : List Preferences) (l : Loop) : Prop where
  staged : l.core.Staged
  writer : l.writer.Orderly
  behind : Behind asked (saved ++ (l.writer.held ++ l.unplaced))
  stored : l.writer.store = store.afterSaves saved
  /-- The preferences in the slot are those that the bell is to be rung for. -/
  placed : l.placed = true → l.writerLost = false ∧ ∃ p rest, l.effects = .savePreferences p :: rest
  taking : l.writer.isOpen = true ↔ l.IsTaking
  /-- A loop that saves by itself leaves nothing to the writer. -/
  alone : l.writerLost = true → l.writer.held = []
  done : l.stage = .done → l.writer.task = .stopped

variable {store : PreferencesStore} {asked saved : List Preferences} {l l' : Loop}

/-- With nothing placed, all preferences among the effects are to be placed. -/
theorem unplaced_of_fresh (h : l.placed = false) : l.unplaced = l.effects.filterMap Effect.saved? := by
  unfold unplaced
  rw [h]
  rfl

/-- With the front one placed, the others are. -/
theorem unplaced_of_placed (h : l.placed = true) {p : Preferences} {rest : List Effect}
    (he : l.effects = .savePreferences p :: rest) : l.unplaced = rest.filterMap Effect.saved? := by
  unfold unplaced
  rw [h, he]
  rfl

namespace Entrusted

/-- The store of a run whose saves all succeed goes on like that. -/
theorem reliable (h : l.Entrusted store asked saved) (hstore : store.IsReliable) (p : Preferences) :
    (l.writer.store.save p).2.1 = .saved := by
  rw [h.stored]
  exact hstore saved p

/-- Nothing is placed unless it is to be saved next. -/
theorem fresh (h : l.Entrusted store asked saved)
    (hnot : ∀ p rest, l.effects ≠ .savePreferences p :: rest) : l.placed = false := by
  cases hplaced : l.placed with
  | false => rfl
  | true =>
    obtain ⟨-, p, rest, hsave⟩ := h.placed hplaced
    exact absurd hsave (hnot p rest)

end Entrusted

/-! ## Each move

The moves that have to do with saving are those by which a request goes from one place to the next.
Of each it is shown where the newest request is afterwards, and that no older one has overtaken it. -/

/-- A move that has nothing to do with saving leaves writer and effects alone. -/
theorem frame_of_step {m : Move} (hp : m.isProper) (hm : l.step m = some l') (hm' : m.isSaving = false) :
    l'.margin.writer = l.writer ∧ l'.margin.placed = l.placed ∧ l'.margin.writerLost = l.writerLost ∧
      l'.core.effects = l.effects ∧ (l'.IsTaking ↔ l.IsTaking) ∧ (l'.stage = .done ↔ l.stage = .done) := by
  have haside : l.Aside m l'.margin := aside_of_step hm
  have hmargin : l'.margin.writer = l.writer ∧ l'.margin.placed = l.placed ∧
      l'.margin.writerLost = l.writerLost := by
    generalize l'.margin = g at haside
    cases haside with
    | kept | failed | took | signalled => exact ⟨rfl, rfl, rfl⟩
    | performed | emitted | put | rang | saved | wrote | closed => exact nomatch hm'
  have hturn : l.core.Turn m l'.core := turn_of_step hp hm
  have hstage : l'.stage = l'.core.stage := rfl
  have hcore : l'.core.effects = l.effects ∧ (l'.IsTaking ↔ l.IsTaking) ∧
      (l'.stage = .done ↔ l.stage = .done) := by
    unfold IsTaking
    rw [hstage]
    generalize l'.core = c at hturn
    cases hturn with
    -- to leave goes from one stage in which messages are taken to the other
    | left stage effects =>
      refine ⟨rfl, ⟨fun _ => Or.inl stage, fun _ => Or.inr rfl⟩, fun hd => (nomatch hd), fun hd => ?_⟩
      exact nomatch stage.symm.trans hd
    | aside | endedOutside | appended | announced | received | failed | woke | lapsed | posted
      | dropped => exact ⟨rfl, Iff.rfl, Iff.rfl⟩
    | handled | performed | brokeDown | began | asked | closed | finished => exact nomatch hm'
  exact ⟨hmargin.1, hmargin.2.1, hmargin.2.2, hcore⟩

/-- A save that succeeds is no concern of the rest of the loop. -/
theorem core_savePreferences_of_sound {p : Preferences}
    (hsound : (l.writer.store.save p).2.1 = .saved) : (l.savePreferences p).core = l.core := by
  have hinline : ∀ l₁ : Loop, l₁.writer.store = l.writer.store → (l₁.saveInline p).core = l₁.core := by
    intro l₁ hsame
    have hsaved : (l₁.writer.store.save p).2.1 = .saved := by rw [hsame, hsound]
    unfold saveInline
    simp only [hsaved]
    rfl
  unfold savePreferences
  split
  · exact hinline l rfl
  · -- the store is the same when the writer has been called
    have hring : l.writer.ring.1.store = l.writer.store := by
      unfold PreferencesWriter.ring
      split
      · rfl
      · rfl
    dsimp only
    split
    · rfl
    · exact hinline _ hring

/-- An effect was carried out, and others are left. -/
structure Performed (l l' : Loop) (e : Effect) (rest : List Effect) : Prop where
  effects : l.effects = e :: rest
  left : l'.effects = rest
  stage : l.stage = .running
  going : l'.stage = .running

/-- A loop that carries out an effect takes messages before and after. -/
theorem Performed.taking {e : Effect} {rest : List Effect} (h : Performed l l' e rest) :
    l'.IsTaking ↔ l.IsTaking :=
  ⟨fun _ => Or.inl h.stage, fun _ => Or.inl h.going⟩

/-- A loop that carries out an effect is not done. -/
theorem Performed.not_done {e : Effect} {rest : List Effect} (h : Performed l l' e rest) :
    l'.stage ≠ .done := by
  rw [h.going]
  decide

/-- To carry out an effect takes it off the list, if the store does not break down. -/
theorem performed_of_performNext (hsound : ∀ p, (l.writer.store.save p).2.1 = .saved)
    (h : l.performNext = some l') : ∃ e rest, Performed l l' e rest := by
  have hturn : l.core.Turn .perform l'.core := turn_of_performNext h
  have heffects : l'.effects = l'.core.effects := rfl
  have hstage : l'.stage = l'.core.stage := rfl
  generalize hc : l'.core = c at hturn heffects hstage
  cases hturn with
  | aside aside => cases aside
  | performed effects stage | began effects stage | asked effects stage =>
    exact ⟨_, _, ⟨effects, heffects, stage, hstage.trans stage⟩⟩
  | @brokeDown p rest effects stage =>
    -- the store would have to break down
    unfold performNext at h
    split at h
    · rename_i e rest' hrunning heffects'
      cases heffects'.symm.trans effects
      split at h
      · cases h
      · cases h
        have hkept := core_savePreferences_of_sound (l := { l with effects := rest }) (hsound p)
        rw [perform, hkept] at hc
        have hclosed : l.stage = .closed := congrArg Core.stage hc
        cases hrunning.symm.trans hclosed
    · cases h

namespace Entrusted

/-- A loop that goes on with the same writer, and has the same left to place, keeps its account. -/
theorem beside (h : l.Entrusted store asked saved) (hstaged : l'.core.Staged)
    (hwriter : l'.writer = l.writer) (hunplaced : l'.unplaced = l.unplaced)
    (hplaced : l'.placed = true → l.placed = true ∧ l'.effects = l.effects)
    (hlost : l'.writerLost = l.writerLost) (htaking : l'.IsTaking ↔ l.IsTaking)
    (hdone : l'.stage = .done → l.writer.task = .stopped) : l'.Entrusted store asked saved := by
  constructor
  case staged => exact hstaged
  case writer => rw [hwriter]; exact h.writer
  case behind => rw [hwriter, hunplaced]; exact h.behind
  case stored => rw [hwriter]; exact h.stored
  case placed =>
    intro hp
    obtain ⟨hbefore, heffects⟩ := hplaced hp
    rw [hlost, heffects]
    exact h.placed hbefore
  case taking => rw [hwriter, htaking]; exact h.taking
  case alone => rw [hwriter, hlost]; exact h.alone
  case done => rw [hwriter]; exact hdone

/-- A request comes into the slot.  Only the one that stands there may get lost. -/
theorem place (h : l.Entrusted store asked saved) (hm : l.place = some l') :
    l'.Entrusted store asked saved := by
  have hstaged : l'.core.Staged := h.staged.turn (turn_of_place hm)
  obtain ⟨p, rest, hstage, heffects, hlost, hfresh, rfl⟩ := place_eq_some hm
  have hopen : l.writer.isOpen = true := h.taking.2 (Or.inl hstage)
  have hbefore : l.unplaced = p :: rest.filterMap Effect.saved? := by
    rw [unplaced_of_fresh hfresh, heffects]
    rfl
  -- the slot may hold an older request, which is lost
  have hbehind : Behind asked ((saved ++ l.writer.saves) ++
      (l.writer.slot.toList ++ p :: rest.filterMap Effect.saved?)) := by
    have hold := h.behind
    rw [hbefore, PreferencesWriter.held] at hold
    simpa only [List.append_assoc] using hold
  constructor
  case staged => exact hstaged
  case writer => exact h.writer.put hopen p
  case behind =>
    rw [unplaced_of_placed (l := { l with writer := l.writer.put p, placed := true }) rfl heffects]
    show Behind asked (saved ++ ((l.writer.saves ++ [p]) ++ rest.filterMap Effect.saved?))
    simpa only [List.append_assoc, List.singleton_append] using hbehind.lose
  case stored => exact h.stored
  case placed => exact fun _ => ⟨hlost, p, rest, heffects⟩
  case taking => exact h.taking
  case alone => exact fun hl => nomatch hlost.symm.trans hl
  case done => exact fun hd => nomatch hstage.symm.trans hd

/-- An effect that saves nothing leaves writer and requests as they are. -/
theorem quiet (h : l.Entrusted store asked saved) (hstaged : l'.core.Staged) {e : Effect}
    {rest : List Effect} (hdid : Performed l l' e rest) (hnone : e.saved? = none)
    (hmargin : l'.margin.writer = l.writer ∧ l'.margin.placed = l.placed ∧
      l'.margin.writerLost = l.writerLost) :
    l'.Entrusted store asked (saved ++ l.saves .perform) := by
  obtain ⟨hwriter, hplaced, hlost⟩ := hmargin
  -- a request that was placed would be at the front
  have hfresh : l.placed = false := by
    refine h.fresh fun p rest' hsave => ?_
    cases hdid.effects.symm.trans hsave
    exact nomatch hnone
  have hfresh' : l'.placed = false := hplaced.trans hfresh
  have hunplaced : l'.unplaced = l.unplaced := by
    rw [unplaced_of_fresh hfresh, unplaced_of_fresh hfresh', hdid.effects, hdid.left,
      List.filterMap_cons_none hnone]
  have hsaves : l.saves .perform = [] := by
    simp only [saves, hdid.effects, List.head?_cons, Option.bind_some, hnone]
    split
    · rfl
    · rfl
  have hnotPlaced : l'.placed = true → l.placed = true ∧ l'.effects = l.effects := by
    intro hp
    exact nomatch hfresh'.symm.trans hp
  rw [hsaves, List.append_nil]
  exact h.beside hstaged hwriter hunplaced hnotPlaced hlost hdid.taking fun hd =>
    absurd hd hdid.not_done

/-- The bell rings for a request that is in the slot already. -/
theorem rang (h : l.Entrusted store asked saved) (hstaged : l'.core.Staged) {p : Preferences}
    {rest : List Effect} (hdid : Performed l l' (.savePreferences p) rest) (going : l.writerLost = false)
    (placed : l.placed = true)
    (hmargin : l'.margin = { l.margin with writer := { l.writer with bell := true }, placed := false }) :
    l'.Entrusted store asked (saved ++ l.saves .perform) := by
  have hwriter : l'.writer = { l.writer with bell := true } := congrArg Margin.writer hmargin
  have hfresh' : l'.placed = false := congrArg Margin.placed hmargin
  have hlost : l'.writerLost = l.writerLost := congrArg Margin.writerLost hmargin
  have hsaves : l.saves .perform = [] := by
    simp only [saves, going, h.writer.alive, decide_false, Bool.or_self, Bool.false_eq_true, if_false]
  -- the request counted as placed before, and now it is gone from the effects
  have hunplaced : l'.unplaced = l.unplaced := by
    rw [unplaced_of_placed placed hdid.effects, unplaced_of_fresh hfresh', hdid.left]
  rw [hsaves, List.append_nil]
  constructor
  case staged => exact hstaged
  case writer => rw [hwriter]; exact h.writer.ring
  case behind => rw [hwriter, hunplaced]; exact h.behind
  case stored => rw [hwriter]; exact h.stored
  case placed => exact fun hp => nomatch hfresh'.symm.trans hp
  case taking => rw [hwriter, hdid.taking]; exact h.taking
  case alone => exact fun hl => nomatch going.symm.trans (hlost.symm.trans hl)
  case done => exact fun hd => absurd hd hdid.not_done

/-- A loop without a writer saves by itself, and nothing is on its way then. -/
theorem savedAlone (h : l.Entrusted store asked saved) (hstaged : l'.core.Staged) {p : Preferences}
    {rest : List Effect} (hdid : Performed l l' (.savePreferences p) rest) (hlost : l.writerLost = true)
    (hwriter : l'.writer = { l.writer with store := (l.writer.store.save p).1 })
    (hplaced : l'.placed = (l.writerLost && l.placed)) :
    l'.Entrusted store asked (saved ++ l.saves .perform) := by
  -- a loop without a writer places nothing
  have hfresh : l.placed = false := by
    cases hbefore : l.placed with
    | false => rfl
    | true => exact nomatch hlost.symm.trans (h.placed hbefore).1
  have hfresh' : l'.placed = false := by rw [hplaced, hfresh, Bool.and_false]
  have hsaves : l.saves .perform = [p] := by
    simp only [saves, hlost, Bool.true_or, if_true, hdid.effects]
    rfl
  have hnothing : l.writer.held = [] := h.alone hlost
  have hsame : l'.writer.held = l.writer.held := by
    rw [hwriter]
    rfl
  rw [hsaves]
  constructor
  case staged => exact hstaged
  case writer => rw [hwriter]; exact h.writer.store _
  case behind =>
    have hold := h.behind
    rw [hnothing, unplaced_of_fresh hfresh, hdid.effects] at hold
    rw [hsame, hnothing, unplaced_of_fresh hfresh', hdid.left, List.append_assoc]
    exact hold
  case stored =>
    rw [hwriter, PreferencesStore.afterSaves_append, ← h.stored]
    rfl
  case placed => exact fun hp => nomatch hfresh'.symm.trans hp
  case taking => rw [hwriter, hdid.taking]; exact h.taking
  case alone => exact fun _ => hsame.trans hnothing
  case done => exact fun hd => absurd hd hdid.not_done

/-- The loop carries out an effect.  It saves by itself only if it has no writer. -/
theorem perform (h : l.Entrusted store asked saved) (hstore : store.IsReliable)
    (hm : l.performNext = some l') : l'.Entrusted store asked (saved ++ l.saves .perform) := by
  have hstaged : l'.core.Staged := h.staged.turn (turn_of_performNext hm)
  obtain ⟨e, rest, hdid⟩ := performed_of_performNext (h.reliable hstore) hm
  have haside : l.Aside .perform l'.margin := aside_of_step (m := .perform) hm
  generalize hg : l'.margin = g at haside
  -- an effect that saves nothing, an event, a request that was placed, or one for a lost writer
  cases haside with
  | kept still => exact nomatch still
  | performed effects still =>
    cases hdid.effects.symm.trans effects
    have hnone : e.saved? = none := by
      cases e with
      | emit | savePreferences => exact nomatch still
      | quit | clearScreen | scheduleTick | scheduleLogTick | watchLog | fetchLogs | sampleTraffic
        | awaitContextEnd | awaitReady => rfl
    exact h.quiet hstaged hdid hnone (hg ▸ ⟨rfl, rfl, rfl⟩)
  | emitted effects =>
    cases hdid.effects.symm.trans effects
    exact h.quiet hstaged hdid rfl (hg ▸ ⟨rfl, rfl, rfl⟩)
  | rang effects going placed =>
    cases hdid.effects.symm.trans effects
    exact h.rang hstaged hdid going placed hg
  | saved effects alone =>
    cases hdid.effects.symm.trans effects
    exact h.savedAlone hstaged hdid (alone.resolve_right h.writer.alive) (congrArg Margin.writer hg)
      (congrArg Margin.placed hg)

/-- A message is handled.  The change it makes, if any, is the only thing that is to be saved then. -/
theorem handle (h : l.Entrusted store asked saved) (hm : l.handleNext = some l') :
    l'.Entrusted store (asked ++ l.changes .handle) saved := by
  have hturn : l.core.Turn .handle l'.core := turn_of_handleNext hm
  have hstaged : l'.core.Staged := h.staged.turn hturn
  have haside : l.Aside .handle l'.margin := aside_of_step (m := .handle) hm
  have hmargin : l'.margin = l.margin := by
    generalize l'.margin = g at haside
    cases haside with
    | kept => rfl
  have hwriter : l'.writer = l.writer := congrArg Margin.writer hmargin
  have hplaced : l'.placed = l.placed := congrArg Margin.placed hmargin
  have hlost : l'.writerLost = l.writerLost := congrArg Margin.writerLost hmargin
  generalize hc : l'.core = c at hturn
  cases hturn with
  | aside aside => exact nomatch aside
  | @handled m rest queue stage effects quitting =>
    have heffects : l.effects = [] := effects
    have hqueue : l.queue = m :: rest := queue
    have hstage : l.stage = .running := stage
    have heffects' : l'.effects = (l.session.update m).2.flatten := congrArg Core.effects hc
    have hstage' : l'.stage = .running := (congrArg Core.stage hc).trans stage
    have hfresh : l.placed = false := by
      refine h.fresh fun p rest hsave => ?_
      exact nomatch heffects.symm.trans hsave
    have hchanges : l.changes .handle = (l.session.changed? m).toList := by
      simp only [changes, hqueue, List.head?_cons, Option.toList_some, List.flatMap_cons,
        List.flatMap_nil, List.append_nil]
    -- all that the message asks to be saved is the change it makes
    have hunplaced : l'.unplaced = l.unplaced ++ l.changes .handle := by
      rw [unplaced_of_fresh (hplaced.trans hfresh), unplaced_of_fresh hfresh, heffects, heffects',
        Session.saves_update, hchanges]
      rfl
    constructor
    case staged => exact hc ▸ hstaged
    case writer => rw [hwriter]; exact h.writer
    case behind =>
      have hmore := h.behind.append (l.changes .handle)
      rw [hwriter, hunplaced]
      simpa only [List.append_assoc] using hmore
    case stored => rw [hwriter]; exact h.stored
    case placed => exact fun hp => nomatch hfresh.symm.trans (hplaced.symm.trans hp)
    case taking =>
      rw [hwriter]
      exact ⟨fun _ => Or.inl hstage', fun _ => h.taking.2 (Or.inl hstage)⟩
    case alone => rw [hwriter, hlost]; exact h.alone
    case done => exact fun hd => nomatch hstage'.symm.trans hd

/-- The writer goes on. -/
theorem stepWriter (h : l.Entrusted store asked saved) (hstore : store.IsReliable)
    (hm : l.stepWriter = some l') : l'.Entrusted store asked (saved ++ l.saves .stepWriter) := by
  obtain ⟨⟨w, records⟩, hstep, rfl⟩ := Option.map_eq_some_iff.1 hm
  obtain ⟨horderly, hopen, hheld, hstored⟩ := h.writer.step (h.reliable hstore) hstep
  constructor
  case staged => exact h.staged
  case writer => exact horderly
  case behind =>
    have hold := h.behind
    rw [hheld] at hold
    show Behind asked ((saved ++ l.writer.saves) ++ (w.held ++ l.unplaced))
    simpa only [List.append_assoc] using hold
  case stored =>
    show w.store = store.afterSaves (saved ++ l.writer.saves)
    rw [hstored, h.stored, PreferencesStore.afterSaves_append]
  case placed => exact h.placed
  case taking =>
    show w.isOpen = true ↔ l.IsTaking
    rw [hopen]
    exact h.taking
  case alone =>
    intro hlost
    have hnothing : l.writer.held = [] := h.alone hlost
    rw [hheld] at hnothing
    exact (List.append_eq_nil_iff.1 hnothing).2
  case done =>
    intro hd
    -- a writer that has stopped makes no step
    have hstopped : l.writer.task = .stopped := h.done hd
    unfold PreferencesWriter.step at hstep
    rw [hstopped] at hstep
    exact nomatch hstep

/-- A closed loop takes no more changes, and neither does its writer. -/
theorem close (h : l.Entrusted store asked saved) (hstaged : l'.core.Staged)
    (hm : l.close = some l') : l'.Entrusted store asked saved := by
  unfold Loop.close at hm
  split at hm
  · cases hm
    -- the writer holds what it held, and takes nothing more
    refine ⟨hstaged, h.writer.close, h.behind, h.stored, h.placed, ⟨fun hopen => ?_, ?_⟩, h.alone,
      fun hd => ?_⟩
    · cases hopen
    · rintro (hs | hs)
      · cases hs
      · cases hs
    · cases hd
  · cases hm

/-- A loop is done once its writer has stopped. -/
theorem finish (h : l.Entrusted store asked saved) (hstaged : l'.core.Staged)
    (hm : l.finish = some l') : l'.Entrusted store asked saved := by
  unfold Loop.finish at hm
  split at hm
  · rename_i hready
    obtain ⟨hstage, hover⟩ := Bool.and_eq_true_iff.1 hready
    have hclosed : l.stage = .closed := of_decide_eq_true hstage
    cases hm
    refine h.beside hstaged rfl rfl (fun hp => ⟨hp, rfl⟩) rfl ⟨?_, ?_⟩ fun _ =>
      h.writer.stopped_of_isOver hover
    · rintro (hs | hs)
      · cases hs
      · cases hs
    · rintro (hs | hs)
      · cases hclosed.symm.trans hs
      · cases hclosed.symm.trans hs
  · cases hm

/-- **Every move keeps the account.** -/
theorem step (h : l.Entrusted store asked saved) (hstore : store.IsReliable) {m : Move}
    (hp : m.isProper) (hm : l.step m = some l') :
    l'.Entrusted store (asked ++ l.changes m) (saved ++ l.saves m) := by
  have hstaged : l'.core.Staged := h.staged.turn (turn_of_step hp hm)
  -- whatever is not about saving leaves the account as it is
  have hbeside : m.isSaving = false → l'.Entrusted store asked saved := by
    intro hm'
    obtain ⟨hwriter, hplaced, hlost, heffects, htaking, hdone⟩ := frame_of_step hp hm hm'
    have hplaced' : l'.placed = l.placed := hplaced
    have heffects' : l'.effects = l.effects := heffects
    have hunplaced : l'.unplaced = l.unplaced := by
      unfold unplaced
      rw [hplaced', heffects']
    exact h.beside hstaged hwriter hunplaced (fun hp => ⟨hplaced'.symm.trans hp, heffects'⟩) hlost
      htaking fun hd => h.done (hdone.1 hd)
  cases m with
  | place =>
    have hnext := h.place hm
    simpa only [changes, saves, List.append_nil] using hnext
  | perform =>
    have hnext := h.perform hstore hm
    simpa only [changes, List.append_nil] using hnext
  | handle =>
    have hnext := h.handle hm
    simpa only [saves, List.append_nil] using hnext
  | stepWriter =>
    have hnext := h.stepWriter hstore hm
    simpa only [changes, List.append_nil] using hnext
  | close =>
    have hnext := h.close hstaged hm
    simpa only [changes, saves, List.append_nil] using hnext
  | finish =>
    have hnext := h.finish hstaged hm
    simpa only [changes, saves, List.append_nil] using hnext
  | failPaint | leave | wake | lapse | post | receive | takeEvent | endScope | signal | append | announce
    | pass =>
    have hnext := hbeside rfl
    simpa only [changes, saves, List.append_nil] using hnext

/-- When all is done, nothing is left to be saved. -/
theorem last_eq (h : l.Entrusted store asked saved) (hdone : l.stage = .done) :
    saved.getLast? = asked.getLast? := by
  have hstopped : l.writer.task = .stopped := h.done hdone
  have hnotRunning : l.core.stage ≠ .running := by
    intro hs
    exact nomatch hdone.symm.trans hs
  have heffects : l.effects = [] := (h.staged.still hnotRunning).1
  have hunplaced : l.unplaced = [] := by
    unfold unplaced
    rw [heffects]
    exact List.drop_nil
  have hlast := h.behind.last
  rwa [h.writer.held_of_stopped hstopped, hunplaced, List.append_nil, List.append_nil] at hlast

/-- When no more messages are taken, the writer comes to its end by itself, and then all is done. -/
theorem exists_finished (h : l.Entrusted store asked saved) (hstore : store.IsReliable)
    (hclosed : l.stage = .closed) :
    ∃ n l', l.run (List.replicate n .stepWriter ++ [.finish]) = some l' ∧ l'.stage = .done := by
  -- on the way of the writer to its end
  induction hd : l.writer.distance using Nat.strongRecOn generalizing l saved with
  | ind d ih =>
    by_cases hstopped : l.writer.task = .stopped
    · have hready : (l.stage = .closed && l.writer.isOver) = true := by
        rw [hclosed, PreferencesWriter.isOver, hstopped]
        decide
      refine ⟨0, { l with stage := .done }.report
        (if l.writerLost then [] else l.writer.obituary), ?_, rfl⟩
      show (l.finish).bind _ = _
      rw [Loop.finish, if_pos hready]
      rfl
    · have hshut : l.writer.isOpen = false := by
        cases hopen : l.writer.isOpen with
        | false => rfl
        | true =>
          rcases h.taking.1 hopen with hs | hs
          · cases hclosed.symm.trans hs
          · cases hclosed.symm.trans hs
      obtain ⟨w, records, hstep, hlt⟩ := h.writer.exists_step (h.reliable hstore) hshut hstopped
      have hmove : l.stepWriter = some ({ l with writer := w }.report records) := by
        unfold Loop.stepWriter
        rw [hstep]
        rfl
      obtain ⟨n, l', hrun, hdone⟩ :=
        ih w.distance (hd ▸ hlt) (h.stepWriter hstore hmove) hclosed rfl
      refine ⟨n + 1, l', ?_, hdone⟩
      rw [List.replicate_succ, List.cons_append]
      show (l.stepWriter).bind _ = _
      rw [hmove]
      exact hrun

end Entrusted

/-! ## Runs

The account of a run is that of its moves.  What is left to say is that a loop which takes no more
messages comes to its end, and that at the end nothing is on its way. -/

section

variable (config : Config) (prefs : Preferences) (logs : LogSource) (size : TerminalSize)
  (capacity : Nat) (store : PreferencesStore) (world : World) (lost : Bool)

/-- A loop at its beginning, which may have found no writer. -/
def startSaving : Loop :=
  { start (Session.make config prefs logs size) capacity store world with writerLost := lost }

/-- A loop begins with nothing to be saved. -/
theorem saves_opening :
    (startSaving config prefs logs size capacity store world lost).effects.filterMap Effect.saved? =
      [] := by
  refine List.filterMap_eq_nil_iff.2 fun e he => ?_
  cases e with
  | savePreferences p =>
    -- preferences are saved while a data plane shows, and there is none yet
    have hstaged := Core.staged_start config prefs logs size capacity store world
    obtain ⟨-, r, hr, -⟩ := hstaged.saving p he
    obtain ⟨hmonitor, -⟩ := Session.begun_frame config prefs logs size
    exact nomatch hmonitor.symm.trans hr
  | emit | quit | clearScreen | scheduleTick | scheduleLogTick | watchLog | fetchLogs | sampleTraffic
    | awaitContextEnd | awaitReady => rfl

/-- The account of a loop at its start: nothing was changed, and nothing saved. -/
theorem entrusted_start :
    (startSaving config prefs logs size capacity store world lost).Entrusted store [] [] := by
  have hstaged := Core.staged_start config prefs logs size capacity store world
  refine ⟨hstaged, PreferencesWriter.orderly_start store, ?_, rfl, fun hp => (nomatch hp),
    ⟨fun _ => Or.inl rfl, fun _ => rfl⟩, fun _ => rfl, fun hd => (nomatch hd)⟩
  have hunplaced : (startSaving config prefs logs size capacity store world lost).unplaced = [] := by
    rw [unplaced_of_fresh rfl]
    exact saves_opening config prefs logs size capacity store world lost
  rw [hunplaced]
  exact .refl []

/-- The account of a run. -/
theorem entrusted_run (hstore : store.IsReliable) {moves : List Move} {l : Loop}
    (hp : ∀ m ∈ moves, m.isProper)
    (hr : (startSaving config prefs logs size capacity store world lost).run moves = some l) :
    l.Entrusted store
      (trace changes (startSaving config prefs logs size capacity store world lost) moves)
      (trace saves (startSaving config prefs logs size capacity store world lost) moves) := by
  refine history_induction (P := fun ms l => l.Entrusted store (trace changes _ ms) (trace saves _ ms))
    ?_ ?_ hp hr
  · exact entrusted_start config prefs logs size capacity store world lost
  · intro ms l₁ m l₂ hproper hms h hm
    rw [trace_snoc _ hms, trace_snoc _ hms]
    exact h.step hstore hproper hm

/-- **The last change is what is stored.**  In every run with a store whose saves succeed, whatever comes
    from outside and however loop and writer take turns:

    * a message that changes a setting asks for one save, of the preferences that session and monitor
      have from then on; no other message asks for a save, and the loop does not begin with one;
    * what was saved is a part of the changes, in their order, each at most once, and the store is
      what these saves made of it;
    * when all is done, the last save is of the last change, and there was none if there was no change;
    * a loop that takes no more messages gets there by steps of the writer alone. -/
theorem last_change_stored (hstore : store.IsReliable) {moves : List Move} {l : Loop}
    (hp : ∀ m ∈ moves, m.isProper)
    (hr : (startSaving config prefs logs size capacity store world lost).run moves = some l) :
    (startSaving config prefs logs size capacity store world lost).effects.filterMap Effect.saved? =
      [] ∧
    (∀ m, (l.session.update m).2.flatten.filterMap Effect.saved? = (l.session.changed? m).toList ∧
      ∀ p, l.session.changed? m = some p → (l.session.update m).1.prefs = p ∧
        ∃ r, (l.session.update m).1.monitor = some r ∧ r.prefs = p) ∧
    (trace saves (startSaving config prefs logs size capacity store world lost) moves).Sublist
      (trace changes (startSaving config prefs logs size capacity store world lost) moves) ∧
    l.writer.store = store.afterSaves
      (trace saves (startSaving config prefs logs size capacity store world lost) moves) ∧
    (l.stage = .done →
      (trace saves (startSaving config prefs logs size capacity store world lost) moves).getLast? =
        (trace changes (startSaving config prefs logs size capacity store world lost) moves).getLast?) ∧
    (l.stage = .closed → ∃ n l', l.run (List.replicate n .stepWriter ++ [.finish]) = some l' ∧
      l'.stage = .done) := by
  have h := entrusted_run config prefs logs size capacity store world lost hstore hp hr
  refine ⟨saves_opening config prefs logs size capacity store world lost, fun m =>
    ⟨l.session.saves_update m, fun p hchanged => Session.prefs_of_changed hchanged⟩, ?_, h.stored,
    h.last_eq, h.exists_finished hstore⟩
  exact (List.sublist_append_left _ _).trans h.behind.sublist

end

/-- The operator goes to the settings, changes the theme twice and leaves, before the writer has done
    anything. -/
def hurry : List Move :=
  entrance ++ [.handle] ++ press .tab ++ press .right ++ [.place, .perform, .perform] ++ press .right ++
    [.place, .perform, .perform, .receive .close, .handle, .perform, .perform, .leave, .close] ++
    List.replicate 5 .stepWriter ++ [.finish]

/-- The first of two changes is lost, and the second one is stored. -/
theorem last_change_stored_in_hurry :
    ∃ l, PreferencesStore.IsReliable (.memory .standard []) ∧ (∀ m ∈ hurry, m.isProper) ∧
      (startSaving (Config.standard none) .standard ⟨.ring, true⟩ ⟨80, 24⟩ 16 (.memory .standard [])
        (World.make (.empty 100) []) false).run hurry = some l ∧
      l.stage = .done ∧
      (trace changes (startSaving (Config.standard none) .standard ⟨.ring, true⟩ ⟨80, 24⟩ 16
        (.memory .standard []) (World.make (.empty 100) []) false) hurry).map (·.theme) =
          [.daylight, .solarized] ∧
      l.writer.store.saved.map (·.theme) = [.solarized] ∧
      (trace saves (startSaving (Config.standard none) .standard ⟨.ring, true⟩ ⟨80, 24⟩ 16
        (.memory .standard []) (World.make (.empty 100) []) false) hurry).getLast? =
      (trace changes (startSaving (Config.standard none) .standard ⟨.ring, true⟩ ⟨80, 24⟩ 16
        (.memory .standard []) (World.make (.empty 100) []) false) hurry).getLast? := by
  have hstore := PreferencesStore.isReliable_memory .standard []
  have hp : ∀ m ∈ hurry, m.isProper := by decide
  have hend : (((startSaving (Config.standard none) .standard ⟨.ring, true⟩ ⟨80, 24⟩ 16
      (.memory .standard []) (World.make (.empty 100) []) false).run hurry).any fun l =>
        l.stage = .done && l.writer.store.saved.map (·.theme) = [.solarized]) = true := by
    decide +kernel
  obtain ⟨l, hl, hdone⟩ := (Option.any_eq_true _ _).1 hend
  simp only [Bool.and_eq_true, decide_eq_true_eq] at hdone
  obtain ⟨hdone, hsaved⟩ := hdone
  have hlast := (last_change_stored _ _ _ _ _ _ _ _ hstore hp hl).2.2.2.2.1 hdone
  exact ⟨l, hstore, hp, hl, hdone, by decide +kernel, hsaved, hlast⟩

end Loop
end TunnelBoard
