import TunnelBoard.Log.Record
import TunnelBoard.Preferences.Basic
import TunnelBoard.Preferences.Save
/-
  Where preferences are kept.

  A file store keeps them in a file that is replaced as a whole; a memory store keeps them for the
  length of a session.  A store may also refuse every request, or break down at every save.  What
  loading or saving reports beside its result are log records.
-/

namespace TunnelBoard

/-- A file with preferences.  `next` numbers the saves of the process. -/
structure PreferencesFile where
  path : Text
  process : Nat
  next : Nat
  deriving DecidableEq, Repr

namespace PreferencesFile

/-- The preferences in the file, in the current layout.  A file that is not there holds the standard
    ones. -/
def load (f : PreferencesFile) (d : Disk) : Except Failure Preferences × List LogRecord :=
  match d.read (placeOf f.path) with
  | .error .notFound => (.ok .standard, [])
  | .error e => (.error (.fileAccess f.path e.message), [])
  | .ok bytes =>
    match decode? bytes with
    | none => (.error (.fileAccess f.path DiskError.notText.message), [])
    | some text =>
      match Preferences.parse? text with
      | none => (.error (.configParse "preferences".toList []), [])
      | some p =>
        (.ok { p with schemaVersion := Preferences.currentVersion },
          if p.schemaVersion > Preferences.currentVersion then
            [logRecord .warn "preferences written by a newer version; unknown fields ignored"
              [shownField "path" f.path, shownField "found" (natText p.schemaVersion),
                shownField "supported" (natText Preferences.currentVersion)]]
          else [])

/-- Replace the file. -/
def save (f : PreferencesFile) (d : Disk) (p : Preferences) :
    PreferencesFile × Disk × Option Failure × List LogRecord :=
  let (d, failure) := (SaveJob.make f.path p.write f.process f.next).run d
  ({ f with next := f.next + 1 }, d, failure,
    if failure.isSome then []
    else
      [logRecord .debug "preferences saved"
        [shownField "path" f.path, shownField "theme" p.theme.name]])

end PreferencesFile

/-- A place to keep preferences, with the disk it may use. -/
inductive PreferencesStore where
  | file (file : PreferencesFile) (disk : Disk)
  /-- The preferences at the beginning, and all that were saved since. -/
  | memory (first : Preferences) (saved : List Preferences)
  | refusing (failure : Failure)
  | broken
  deriving Repr

/-- How a save ends. -/
inductive SaveResult where
  | saved
  | failed (failure : Failure)
  /-- The store broke down, and with it whoever asked for the save. -/
  | brokeDown
  deriving DecidableEq, Repr

namespace PreferencesStore

/-- What a store in memory holds. -/
def held? : PreferencesStore → Option Preferences
  | memory first saved => some (saved.getLast?.getD first)
  | _ => none

/-- What was saved to a store in memory, oldest first. -/
def saved : PreferencesStore → List Preferences
  | memory _ saved => saved
  | _ => []

def load : PreferencesStore → Except Failure Preferences × List LogRecord
  | file f d => f.load d
  | memory first saved => (.ok (saved.getLast?.getD first), [])
  | refusing failure => (.error failure, [])
  | broken => (.ok .standard, [])

def save (s : PreferencesStore) (p : Preferences) :
    PreferencesStore × SaveResult × List LogRecord :=
  match s with
  | file f d =>
    let (f, d, failure, records) := f.save d p
    match failure with
    | none => (file f d, .saved, records)
    | some failure => (file f d, .failed failure, records)
  | memory first saved => (memory first (saved ++ [p]), .saved, [])
  | refusing failure => (s, .failed failure, [])
  | broken => (s, .brokeDown, [])

/-- What the store holds, or the standard preferences if it cannot tell. -/
def loadOrStandard (s : PreferencesStore) : Preferences × List LogRecord :=
  match s.load with
  | (.ok p, records) => (p, records)
  | (.error failure, records) =>
    (.standard, records ++
      [logRecord .warn "preferences unreadable; using defaults"
        [quotedField "code" failure.code, shownField "error" failure.message]])

/-- The report of a save that failed in the background. -/
def saveFailed (failure : Failure) : LogRecord :=
  logRecord .warn "failed to save preferences"
    [shownField "error" failure.message, quotedField "code" failure.code]

end PreferencesStore
end TunnelBoard
