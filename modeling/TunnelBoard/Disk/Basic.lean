import TunnelBoard.Text.Basic
/-
  Folders and files.

  A disk is a list of places, each with what is there; a place is the list of names on the way to
  it.  The empty place, where relative paths start, is always a folder, and so is the root of all
  folders.  Operations fail for the reasons a system gives, in its words, or because of a fault from
  outside.
-/

namespace TunnelBoard

/-- The names on the way to a file or folder. -/
abbrev Place := List Text

/-- The names in a path. -/
def namesOf (path : Text) : List Text :=
  (cutAt '/' path).filter fun name => name ≠ [] && name ≠ ['.']

/-- The place that a path leads to.  A path that starts at the root of all folders has `/` for its
    first name. -/
def placeOf (path : Text) : Place :=
  let place := (namesOf path).foldl
    (fun way name => if name = ['.', '.'] then way.dropLast else way ++ [name]) []
  if path.head? = some '/' then ['/'] :: place else place

/-- The name of what a path leads to; `none` if the path does not say it. -/
def fileName? (path : Text) : Option Text := (namesOf path).getLast?.filter (· ≠ ['.', '.'])

/-- A name in a folder. -/
def joinPath (folder name : Text) : Text :=
  if folder = [] || folder.getLast? = some '/' then folder ++ name else folder ++ '/' :: name

/-- The path of the folder that a path leads into; `none` for a path of one name. -/
def parentPath? (path : Text) : Option Text :=
  let isSlash := fun c => c = '/'
  let front := ((path.reverse.dropWhile isSlash).dropWhile (!isSlash ·)).dropWhile isSlash
  if front ≠ [] then some front.reverse
  else if path.head? = some '/' then some ['/']
  else none

/-- What is at a place. -/
inductive DiskNode where
  | file (bytes : List UInt8)
  | folder
  deriving DecidableEq, Repr

/-- Why the disk refuses an operation. -/
inductive DiskError where
  | notFound
  | notFolder
  | isFolder
  | alreadyThere
  | notText
  | other (cause : Text)
  deriving DecidableEq, Repr

namespace DiskError

def message : DiskError → Text
  | notFound => "No such file or directory (os error 2)".toList
  | notFolder => "Not a directory (os error 20)".toList
  | isFolder => "Is a directory (os error 21)".toList
  | alreadyThere => "File exists (os error 17)".toList
  | notText => "stream did not contain valid UTF-8".toList
  | other cause => cause

end DiskError

/-- The places on the way to a place, itself the last of them. -/
def waysTo (p : Place) : List Place := (List.range (p.length + 1)).map p.take

structure Disk where
  nodes : List (Place × DiskNode)
  deriving DecidableEq, Repr

namespace Disk

def empty : Disk := ⟨[]⟩

/-- What is at a place. -/
def at? (d : Disk) (p : Place) : Option DiskNode :=
  if p = [] ∨ p = [['/']] then some .folder else d.nodes.lookup p

def isFolder (d : Disk) (p : Place) : Bool := d.at? p = some .folder

/-- The disk with something at a place. -/
def put (d : Disk) (p : Place) (n : DiskNode) : Disk :=
  ⟨(p, n) :: d.nodes.filter fun e => e.1 ≠ p⟩

/-- The disk with nothing at a place. -/
def remove (d : Disk) (p : Place) : Disk := ⟨d.nodes.filter fun e => e.1 ≠ p⟩

/-- Why a place cannot be reached, if it cannot: there is a file on the way, or nothing. -/
def blocked? (d : Disk) (p : Place) : Option DiskError :=
  ((waysTo p).dropLast.filterMap fun way =>
    match d.at? way with
    | some .folder => none
    | some (.file _) => some .notFolder
    | none => some .notFound).head?

/-- The bytes of a file. -/
def read (d : Disk) (p : Place) : Except DiskError (List UInt8) :=
  match d.blocked? p, d.at? p with
  | some e, _ => .error e
  | none, some (.file bytes) => .ok bytes
  | none, some .folder => .error .isFolder
  | none, none => .error .notFound

/-- Whether something is at a place that can be reached. -/
def holds (d : Disk) (p : Place) : Bool := (d.blocked? p).isNone && (d.at? p).isSome

/-- Make a folder and all folders on the way to it. -/
def makeFolders (d : Disk) (p : Place) : Except DiskError Disk :=
  (waysTo p).foldlM
    (fun d way =>
      match d.at? way with
      | some .folder => .ok d
      | some (.file _) => .error (if way = p then .alreadyThere else .notFolder)
      | none => .ok (d.put way .folder))
    d

/-- Make an empty file, in the place of any file that is there. -/
def create (d : Disk) (p : Place) : Except DiskError Disk :=
  match d.blocked? p with
  | some e => .error e
  | none => if d.isFolder p then .error .isFolder else .ok (d.put p (.file []))

/-- Move a file, over any file that is there, in one go. -/
def rename (d : Disk) (source target : Place) : Except DiskError Disk :=
  match d.at? source, d.blocked? target with
  | none, _ => .error .notFound
  | some _, some e => .error e
  | some n, none =>
    if d.isFolder target then .error .isFolder else .ok ((d.remove source).put target n)

/-- Write a whole file at once, making the folders on the way. -/
def writeWhole (d : Disk) (p : Place) (bytes : List UInt8) : Disk :=
  match d.makeFolders p.dropLast with
  | .ok d => if d.isFolder p then d else d.put p (.file bytes)
  | .error _ => d

/-- The names in a folder. -/
def names (d : Disk) (p : Place) : List Text :=
  d.nodes.filterMap fun e =>
    match e.1.getLast? with
    | some name => if e.1.dropLast = p then some name else none
    | none => none

end Disk
end TunnelBoard
