import TunnelBoard.Preferences.Writer
/-
  The writer of preferences, one step at a time.

  What a writer holds is the request it is about to save, if there is one, and behind it the request
  in its slot.  A step either saves the first of what the writer holds, or holds the same as before
  (`Orderly.step`); only `put` makes the writer forget something, and that is a request that stands in
  the slot when a newer one comes.

  The round that ends a writer begins when no more requests can come.  So nothing comes into the slot
  behind that round, and a writer that has stopped holds nothing (`Orderly.held_of_stopped`).  That
  the round comes to an end is seen from the distance to it: a writer that takes no more requests has
  a step to make, and is nearer to its end after it (`Orderly.exists_step`).  A bell that still rings
  costs one more round, so it is counted in.
-/

namespace TunnelBoard

namespace PreferencesStore

/-- The store after some saves, one after the other. -/
def afterSaves (s : PreferencesStore) (ps : List Preferences) : PreferencesStore :=
  ps.foldl (fun s p => (s.save p).1) s

/-- Whether every save succeeds, whatever was saved before it. -/
def IsReliable (s : PreferencesStore) : Prop := ∀ ps p, ((s.afterSaves ps).save p).2.1 = .saved

/-- Saves may be made in two parts. -/
theorem afterSaves_append (s : PreferencesStore) (ps qs : List Preferences) :
    s.afterSaves (ps ++ qs) = (s.afterSaves ps).afterSaves qs :=
  List.foldl_append

/-- A store in memory keeps all that is saved to it. -/
theorem afterSaves_memory (first : Preferences) (saved ps : List Preferences) :
    (memory first saved).afterSaves ps = memory first (saved ++ ps) := by
  induction ps generalizing saved with
  | nil => rw [List.append_nil]; rfl
  | cons p ps ih =>
    show (memory first (saved ++ [p])).afterSaves ps = _
    rw [ih, List.append_assoc]
    rfl

/-- So a store in memory is reliable. -/
theorem isReliable_memory (first : Preferences) (saved : List Preferences) :
    (memory first saved).IsReliable := by
  intro ps p
  rw [afterSaves_memory]
  rfl

end PreferencesStore

namespace WriterTask

/-- Whether a task belongs to the round that ends the writer. -/
def isLast : WriterTask → Bool
  | collect last => last
  | save _ last => last
  | stopped => true
  | sleep | dead => false

/-- Whether the slot was emptied for the last time. -/
def isEmptied : WriterTask → Bool
  | save _ last => last
  | stopped => true
  | sleep | collect _ | dead => false

/-- The slot is emptied for the last time in the last round. -/
theorem isLast_of_isEmptied {t : WriterTask} (h : t.isEmptied = true) : t.isLast = true := by
  cases t with
  | save | stopped => exact h
  | sleep | collect | dead => exact nomatch h

end WriterTask

namespace PreferencesWriter

/-- What the next step saves. -/
def saves (w : PreferencesWriter) : List Preferences :=
  match w.task with
  | .save p _ => [p]
  | .sleep | .collect _ | .stopped | .dead => []

/-- The requests that a writer holds, oldest first. -/
def held (w : PreferencesWriter) : List Preferences := w.saves ++ w.slot.toList

/-- Whether a writer is alive and keeps to its last round: it begins when the slot takes no more
    requests, and behind it the slot is empty. -/
structure Orderly (w : PreferencesWriter) : Prop where
  alive : w.task ≠ .dead
  last : w.task.isLast = true → w.isOpen = false
  emptied : w.task.isEmptied = true → w.slot = none

variable {w w' : PreferencesWriter} {records : List LogRecord}

/-- Before its last round, a writer has nothing to keep to. -/
theorem orderly_of_not_last (halive : w.task ≠ .dead) (h : w.task.isLast = false) : w.Orderly := by
  refine ⟨halive, fun hl => ?_, fun he => ?_⟩
  · exact nomatch h.symm.trans hl
  · exact nomatch h.symm.trans (WriterTask.isLast_of_isEmptied he)

/-- A writer starts in good order. -/
theorem orderly_start (store : PreferencesStore) : (start store).Orderly :=
  orderly_of_not_last (fun h => nomatch h) rfl

/-- A request may be put in the slot as long as requests can come. -/
theorem Orderly.put (h : w.Orderly) (hopen : w.isOpen = true) (p : Preferences) : (w.put p).Orderly := by
  refine ⟨h.alive, h.last, fun he => ?_⟩
  have hclosed := h.last (WriterTask.isLast_of_isEmptied he)
  exact nomatch hopen.symm.trans hclosed

/-- The bell of the writer may ring at any time. -/
theorem Orderly.ring (h : w.Orderly) : Orderly { w with bell := true } := ⟨h.alive, h.last, h.emptied⟩

/-- The writer may be closed at any time. -/
theorem Orderly.close (h : w.Orderly) : w.close.Orderly := ⟨h.alive, fun _ => rfl, h.emptied⟩

/-- Somebody else may use its store. -/
theorem Orderly.store (h : w.Orderly) (s : PreferencesStore) : Orderly { w with store := s } :=
  ⟨h.alive, h.last, h.emptied⟩

/-- A step saves the first request, or the writer holds what it held before. -/
theorem Orderly.step (h : w.Orderly) (hstore : ∀ p, (w.store.save p).2.1 = .saved)
    (hw : w.step = some (w', records)) :
    w'.Orderly ∧ w'.isOpen = w.isOpen ∧ w.held = w.saves ++ w'.held ∧
      w'.store = w.store.afterSaves w.saves := by
  obtain ⟨store, slot, bell, isOpen, task⟩ := w
  unfold PreferencesWriter.step at hw
  -- by what the writer is about to do: it sleeps, looks into the slot, or saves
  cases task with
  | sleep =>
    dsimp only at hw
    split at hw
    · cases hw
      exact ⟨orderly_of_not_last (fun hd => nomatch hd) rfl, rfl, rfl, rfl⟩
    · split at hw
      · exact nomatch hw
      · -- the last round begins, since no more requests can come
        rename_i hclosed
        cases hw
        have hclosed : isOpen = false := by simpa using hclosed
        exact ⟨⟨fun hd => (nomatch hd), fun _ => hclosed, fun he => (nomatch he)⟩, rfl, rfl, rfl⟩
  | collect last =>
    cases hw
    have hlast : last = true → isOpen = false := h.last
    cases slot with
    | some p => exact ⟨⟨fun hd => (nomatch hd), hlast, fun _ => rfl⟩, rfl, rfl, rfl⟩
    | none =>
      cases last with
      | true => exact ⟨⟨fun hd => (nomatch hd), hlast, fun _ => rfl⟩, rfl, rfl, rfl⟩
      | false => exact ⟨orderly_of_not_last (fun hd => nomatch hd) rfl, rfl, rfl, rfl⟩
  | save p last =>
    have hsaved : (store.save p).2.1 = .saved := hstore p
    simp only [hsaved] at hw
    cases hw
    cases last with
    | true => exact ⟨⟨fun hd => (nomatch hd), h.last, h.emptied⟩, rfl, rfl, rfl⟩
    | false => exact ⟨orderly_of_not_last (fun hd => nomatch hd) rfl, rfl, rfl, rfl⟩
  | stopped => exact nomatch hw
  | dead => exact absurd rfl h.alive

/-- A writer that has stopped holds nothing. -/
theorem Orderly.held_of_stopped (h : w.Orderly) (hs : w.task = .stopped) : w.held = [] := by
  have hslot : w.slot = none := h.emptied (by rw [hs]; rfl)
  unfold held saves
  rw [hs, hslot]
  rfl

/-- A writer in good order is no more when it has stopped. -/
theorem Orderly.stopped_of_isOver (h : w.Orderly) (hover : w.isOver = true) : w.task = .stopped := by
  unfold isOver at hover
  rcases Bool.or_eq_true_iff.1 hover with hs | hd
  · exact of_decide_eq_true hs
  · exact absurd (of_decide_eq_true hd) h.alive

/-! ## The way to the end -/

/-- How many steps are enough to end a writer that takes no more requests, if its bell is silent. -/
def stepsLeft : WriterTask → Nat
  | .stopped | .dead => 0
  | .save _ true => 1
  | .collect true => 2
  | .sleep => 3
  | .save _ false => 4
  | .collect false => 5

/-- How far a writer is from its end.  A bell that rings is worth one round more. -/
def distance (w : PreferencesWriter) : Nat := stepsLeft w.task + if w.bell then 3 else 0

/-- As long as the bell is left alone, it is a matter of the task. -/
theorem distance_lt_of_bell (hbell : w'.bell = w.bell) (h : stepsLeft w'.task < stepsLeft w.task) :
    w'.distance < w.distance := by
  unfold distance
  rw [hbell]
  exact Nat.add_lt_add_right h _

/-- A writer that takes no more requests has a step to make until it is no more, and comes nearer to
    its end with it. -/
theorem Orderly.exists_step (h : w.Orderly) (hstore : ∀ p, (w.store.save p).2.1 = .saved)
    (hclosed : w.isOpen = false) (hgoing : w.task ≠ .stopped) :
    ∃ w' records, w.step = some (w', records) ∧ w'.distance < w.distance := by
  obtain ⟨store, slot, bell, isOpen, task⟩ := w
  cases hclosed
  unfold PreferencesWriter.step
  cases task with
  -- it is woken by the bell, or by the end of all requests
  | sleep =>
    cases bell with
    | true => exact ⟨_, _, rfl, show 5 < 6 by decide⟩
    | false => exact ⟨_, _, rfl, show 2 < 3 by decide⟩
  | collect last =>
    refine ⟨_, _, rfl, distance_lt_of_bell rfl ?_⟩
    cases slot with
    | some p =>
      cases last with
      | true => exact show 1 < 2 by decide
      | false => exact show 4 < 5 by decide
    | none =>
      cases last with
      | true => exact show 0 < 2 by decide
      | false => exact show 3 < 5 by decide
  | save p last =>
    have hsaved : (store.save p).2.1 = .saved := hstore p
    simp only [hsaved]
    refine ⟨_, _, rfl, distance_lt_of_bell rfl ?_⟩
    cases last with
    | true => exact show 0 < 1 by decide
    | false => exact show 3 < 4 by decide
  | stopped => exact absurd rfl hgoing
  | dead => exact absurd rfl h.alive

end PreferencesWriter
end TunnelBoard
