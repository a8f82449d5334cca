import TunnelBoard.Config.Override
import TunnelBoard.Disk.Basic
import TunnelBoard.Text.Utf8
/-
  Where a configuration comes from: a file, then the environment, then acceptance.

  A file that is named has to be there; without one, the standard file is read if it is there.
  Blank variables of the environment do not count.
-/

namespace TunnelBoard

/-- What a program finds around it. -/
structure Surroundings where
  home : Option Text
  env : Environment
  disk : Disk

namespace Surroundings

/-- A variable that is not blank. -/
def nonBlank? (s : Surroundings) (name : String) : Option Text :=
  (s.env.get? name).filter (!allBlank ·)

/-- Whether output may be coloured. -/
def color (s : Surroundings) : Bool := (s.env.get? "NO_COLOR").isNone

end Surroundings

namespace Config

/-- The configuration in a file. -/
def readFile (s : Surroundings) (path : Text) : Except Failure Config :=
  match s.disk.read (placeOf path) with
  | .error e => .error (.fileAccess path e.message)
  | .ok bytes =>
    match decode? bytes with
    | none => .error (.fileAccess path DiskError.notText.message)
    | some text =>
      match parse? s.home text with
      | none => .error (.configParse "toml".toList [])
      | some c => .ok c

/-- What the file says, or the standard configuration if no file is named and the standard one is
    not there. -/
def fromFile (s : Surroundings) (path : Option Text) : Except Failure Config :=
  let file := path.getD (PathsConfig.standard s.home).configFile
  if s.disk.holds (placeOf file) then readFile s file
  else if path.isSome then .error (.missingConfig file)
  else .ok (standard s.home)

/-- The configuration that is in force. -/
def load (s : Surroundings) (path : Option Text) : Except Failure Config := do
  let c ← fromFile s path
  let file := path.getD (PathsConfig.standard s.home).configFile
  match override s.nonBlank? { c with paths := { c.paths with configFile := file } } with
  | (_, some failure) => .error failure
  | (c, none) =>
    c.validate
    pure c

end Config
end TunnelBoard
