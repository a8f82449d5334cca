import TunnelBoard.Disk.Basic
import TunnelBoard.Failure
import TunnelBoard.Text.Utf8
/-
  Replacing a file as a whole.

  A save writes a temporary file next to the target and then moves it over the target, so that the
  target holds at every moment either what it held before or the whole new text.  Each step is one
  operation of the disk, so saves can be run side by side, one step of any of them at a time, and a
  fault can strike any step.
-/

namespace TunnelBoard

/-- How far a save has come. -/
inductive SaveStage where
  | start
  /-- The folder of the file is there. -/
  | ready
  /-- The temporary file is there, and empty. -/
  | created
  | written
  | synced
  /-- The file could not be moved, so the temporary file is to be removed. -/
  | undoing (cause : Text)
  /-- The save is over, with or without success. -/
  | ended (failure : Option Failure)
  deriving DecidableEq, Repr

/-- A save under way. -/
structure SaveJob where
  path : Text
  body : Text
  /-- What tells the temporary files of all saves apart: the process and a count within it. -/
  process : Nat
  number : Nat
  stage : SaveStage
  deriving Repr

/-- Trouble with one operation of the disk.  A write that fails leaves some bytes behind. -/
structure DiskFault where
  cause : Text
  kept : Nat

namespace SaveJob

/-- A save that has not begun. -/
def make (path body : Text) (process number : Nat) : SaveJob := ⟨path, body, process, number, .start⟩

def target (j : SaveJob) : Place := placeOf j.path

/-- The place of the folder that is made first. -/
def folder (j : SaveJob) : Place :=
  match fileName? j.path with
  | some _ => j.target.dropLast
  | none => placeOf ((parentPath? j.path).getD [])

/-- The path of the folder, as failures name it. -/
def folderPath (j : SaveJob) : Text := (parentPath? j.path).getD []

/-- The name of the temporary file. -/
def tempName (j : SaveJob) : Text :=
  (fileName? j.path).getD []
    ++ '.' :: natText j.process ++ '.' :: natText j.number ++ ".tmp".toList

/-- The place of the temporary file: next to the target, or in it if the path does not name it. -/
def temp (j : SaveJob) : Place :=
  match fileName? j.path with
  | some _ => j.target.dropLast ++ [j.tempName]
  | none => j.target ++ [j.tempName]

/-- The path of the temporary file, as failures name it. -/
def tempPath (j : SaveJob) : Text :=
  match fileName? j.path with
  | some _ => joinPath j.folderPath j.tempName
  | none => joinPath j.path j.tempName

/-- The save, ended by a failure. -/
def fail (j : SaveJob) (path cause : Text) : SaveJob :=
  { j with stage := .ended (some (.fileAccess path cause)) }

/-- An operation that `fault` may spoil. -/
def attempt (fault : Option DiskFault) (r : Except DiskError Disk) : Except DiskError Disk :=
  match fault with
  | some f => .error (.other f.cause)
  | none => r

/-- The next step of a save. -/
def step (fault : Option DiskFault) (d : Disk) (j : SaveJob) : Disk × SaveJob :=
  match j.stage with
  | .start =>
    match attempt fault (d.makeFolders j.folder) with
    | .ok d => (d, { j with stage := .ready })
    | .error e => (d, j.fail j.folderPath e.message)
  | .ready =>
    match attempt fault (d.create j.temp) with
    | .ok d => (d, { j with stage := .created })
    | .error e => (d, j.fail j.tempPath e.message)
  | .created =>
    match fault with
    | some f => (d.put j.temp (.file ((encode j.body).take f.kept)), j.fail j.tempPath f.cause)
    | none => (d.put j.temp (.file (encode j.body)), { j with stage := .written })
  | .written =>
    match fault with
    | some f => (d, j.fail j.tempPath f.cause)
    | none => (d, { j with stage := .synced })
  | .synced =>
    match attempt fault (d.rename j.temp j.target) with
    | .ok d => (d, { j with stage := .ended none })
    | .error e => (d, { j with stage := .undoing e.message })
  | .undoing cause =>
    let d := if fault.isSome then d else d.remove j.temp
    (d, j.fail j.path cause)
  | .ended _ => (d, j)

/-- A save from start to end with nothing in its way, and its failure if the disk refuses it. -/
def run (d : Disk) (j : SaveJob) : Disk × Option Failure :=
  let (d, j) := (List.range 6).foldl (fun s _ => step none s.1 s.2) (d, j)
  match j.stage with
  | .ended failure => (d, failure)
  | _ => (d, none)

end SaveJob

/-- Saves side by side, with the disk that they share. -/
structure Saves (n : Nat) where
  disk : Disk
  jobs : Fin n → SaveJob

namespace Saves

variable {n : Nat}

/-- Saves of some texts by one process, none of which has begun.  Their numbers follow one another. -/
def start (path : Text) (process first : Nat) (bodies : Fin n → Text) (d : Disk) : Saves n :=
  ⟨d, fun i => .make path (bodies i) process (first + i)⟩

/-- The next step of one of the saves, which a fault may spoil. -/
def step (s : Saves n) (move : Fin n × Option DiskFault) : Saves n :=
  let (d, j) := (s.jobs move.1).step move.2 s.disk
  ⟨d, fun i => if i = move.1 then j else s.jobs i⟩

/-- Some steps, each of any of the saves. -/
def run (s : Saves n) (moves : List (Fin n × Option DiskFault)) : Saves n := moves.foldl step s

end Saves
end TunnelBoard
