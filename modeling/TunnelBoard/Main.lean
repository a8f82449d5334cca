import TunnelBoard.CommandLine.Basic
/-
  The program: gather what is around it, call the command line, and carry out what comes back.
-/

namespace TunnelBoard
namespace Program

/-- The variables that the program looks at. -/
def relevantVariables : List String :=
  Override.all.map Override.name ++ ["NO_COLOR", "CLICOLOR_FORCE", "TUNDASH_LOG", "RUST_LOG"]

def environment : IO Environment :=
  relevantVariables.filterMapM fun name => do
    let value ← IO.getEnv name
    pure (value.map fun v => (name.toList, v.toList))

/-- The disk with a file of the system on it, if there is one. -/
def withFile (d : Disk) (path : Text) : IO Disk := do
  try
    let bytes ← IO.FS.readBinFile (String.ofList path)
    pure (d.writeWhole (placeOf path) bytes.toList)
  catch _ => pure d

/-- The file that a call reads its configuration from. -/
def configFile (home : Option Text) (words : List Text) : Text :=
  match Invocation.ofWords words with
  | .execute a => a.configPath.getD (PathsConfig.standard home).configFile
  | _ => (PathsConfig.standard home).configFile

/-- The file that a call keeps preferences in, if its configuration can be read. -/
def preferencesFile? (around : Surroundings) (words : List Text) : Option Text :=
  match Invocation.ofWords words with
  | .execute a => (Config.load around a.configPath).toOption.map (·.paths.preferencesFile)
  | _ => none

/-- Bring a file of the system up to date. -/
def keepFile (before after : Disk) (path : Text) : IO Unit :=
  match before.read (placeOf path), after.read (placeOf path) with
  | old, .ok bytes => do
    unless old.toOption = some bytes do
      if let some folder := parentPath? path then
        IO.FS.createDirAll (String.ofList folder)
      IO.FS.writeBinFile (String.ofList path) (ByteArray.mk bytes.toArray)
  | _, _ => pure ()

def run (words : List Text) : IO UInt32 := do
  let home := (← IO.getEnv "HOME").map String.toList
  let env ← environment
  let disk ← withFile Disk.empty (configFile home words)
  let preferences := preferencesFile? ⟨home, env, disk⟩ words
  let disk ← preferences.elim (pure disk) (withFile disk)
  let outcome := CommandLine.call ⟨home, env, disk⟩ words "not supported".toList
  if let some path := preferences then keepFile disk outcome.disk path
  for line in outcome.remarks do
    IO.eprintln (String.ofList line)
  IO.print (String.ofList outcome.output)
  pure (UInt32.ofNat outcome.exitCode)

end Program
end TunnelBoard

def main (words : List String) : IO UInt32 := TunnelBoard.Program.run (words.map String.toList)
