import TunnelBoard.Preferences.Store
/-
  Saving in the background.

  One writer does all saves of a session.  It has a slot for the newest request, and a bell.  A
  request is put in the slot first and rings the bell afterwards; a bell that rings already stays so.
  The writer sleeps until the bell rings, and then empties the slot and saves what was in it.  It may
  be on its way to the slot already when a request is put there, and then takes that request before
  the bell has rung for it.  When no more requests can come and the bell is silent, it empties the
  slot once more and stops.  A store that breaks down takes the writer with it.
-/

namespace TunnelBoard

/-- What the writer is about to do. -/
inductive WriterTask where
  | sleep
  /-- Empty the slot; `last` if this is for the last time. -/
  | collect (last : Bool)
  | save (p : Preferences) (last : Bool)
  | stopped
  /-- The store broke down. -/
  | dead
  deriving DecidableEq, Repr

structure PreferencesWriter where
  store : PreferencesStore
  /-- The newest request that is not yet collected. -/
  slot : Option Preferences
  bell : Bool
  /-- Whether more requests can come. -/
  isOpen : Bool
  task : WriterTask
  deriving Repr

namespace PreferencesWriter

/-- A writer that waits for its first request. -/
def start (store : PreferencesStore) : PreferencesWriter := ⟨store, none, false, true, .sleep⟩

/-- The failure of a request that no one can carry out. -/
def gone : Failure := .channelClosed "preferences writer".toList

/-- Put a request in the slot, in the place of one that was not collected. -/
def put (w : PreferencesWriter) (p : Preferences) : PreferencesWriter := { w with slot := some p }

/-- Ring the bell; `false` if there is no one to hear it. -/
def ring (w : PreferencesWriter) : PreferencesWriter × Bool :=
  if w.task = .dead then (w, false) else ({ w with bell := true }, true)

/-- Ask for a save; `false` if there is no one to do it. -/
def request (w : PreferencesWriter) (p : Preferences) : PreferencesWriter × Bool := (w.put p).ring

/-- No more requests will come. -/
def close (w : PreferencesWriter) : PreferencesWriter := { w with isOpen := false }

/-- What the writer does next; `none` if it waits, or is no more. -/
def step (w : PreferencesWriter) : Option (PreferencesWriter × List LogRecord) :=
  match w.task with
  | .sleep =>
    if w.bell then some ({ w with bell := false, task := .collect false }, [])
    else if w.isOpen then none
    else some ({ w with task := .collect true }, [])
  | .collect last =>
    some
      ({ w with
          slot := none
          task :=
            match w.slot with
            | some p => .save p last
            | none => if last then .stopped else .sleep }, [])
  | .save p last =>
    let (store, result, records) := w.store.save p
    let after : WriterTask := if last then .stopped else .sleep
    match result with
    | .saved => some ({ w with store, task := after }, records)
    | .failed failure =>
      some ({ w with store, task := after }, records ++ [PreferencesStore.saveFailed failure])
    | .brokeDown => some ({ w with store, task := .dead }, records)
  | .stopped => none
  | .dead => none

/-- How many steps are enough to bring the writer to rest: at most two rounds, each of three. -/
def stepsToRest : Nat := 6

/-- Run the writer until it waits or is no more. -/
def settle (w : PreferencesWriter) : PreferencesWriter × List LogRecord :=
  go stepsToRest w
where
  go : Nat → PreferencesWriter → PreferencesWriter × List LogRecord
    | 0, w => (w, [])
    | n + 1, w =>
      match w.step with
      | none => (w, [])
      | some (w, records) =>
        let (w, more) := go n w
        (w, records ++ more)

/-- Whether the writer is no more. -/
def isOver (w : PreferencesWriter) : Bool := w.task = .stopped || w.task = .dead

/-- What is reported of a writer that is no more. -/
def obituary (w : PreferencesWriter) : List LogRecord :=
  if w.task = .dead then [logRecord .warn "preferences writer panicked" []] else []

/-- Take no more requests, let the writer finish, and say so if it broke down. -/
def finish (w : PreferencesWriter) : PreferencesWriter × List LogRecord :=
  let (w, records) := w.close.settle
  (w, records ++ w.obituary)

end PreferencesWriter
end TunnelBoard
