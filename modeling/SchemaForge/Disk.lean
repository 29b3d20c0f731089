import SchemaForge.Path
set_option autoImplicit false

/-!
# Directories and documents on a disk

A disk maps places, which are lists of names from the root, to directories and documents. Programs
run in one working directory.

## Main definitions

* `SchemaForge.Disk` — the state of a disk.
* `SchemaForge.FileError` — why an access fails.
* `SchemaForge.Disk.createParents`, `SchemaForge.Disk.write`, `SchemaForge.Disk.read` — accesses by
  path.
* `SchemaForge.Disk.documents` — the documents below the working directory.
-/

namespace SchemaForge

open SchemaForge.Path

/-- Why an access to a disk fails. -/
inductive FileError where
  | notFound
  | alreadyExists
  | notADirectory
  | isADirectory
  | nameTooLong
  /-- The path holds the character that ends names. -/
  | nulInPath
  deriving DecidableEq, Repr, Inhabited

/-- The text of a failure. -/
def FileError.message : FileError → String
  | .notFound => "No such file or directory (os error 2)"
  | .alreadyExists => "File exists (os error 17)"
  | .notADirectory => "Not a directory (os error 20)"
  | .isADirectory => "Is a directory (os error 21)"
  | .nameTooLong => "File name too long (os error 36)"
  | .nulInPath => "file name contained an unexpected NUL byte"

/-- What a place on a disk holds. -/
inductive Disk.Entry where
  | directory
  | document (content : ByteArray)
  deriving Inhabited

/-- A disk: what each place holds, the latest change first. The root is always a directory. -/
structure Disk where
  changes : List (List String × Disk.Entry)
  deriving Inhabited

namespace Disk

/-- The place of the working directory. -/
def workingPlace : List String := ["work"]

/-- The disk that holds nothing but an empty working directory. -/
def empty : Disk := ⟨[(workingPlace, .directory)]⟩

/-- What the place holds. -/
def lookup (disk : Disk) (place : List String) : Option Entry :=
  if place = [] then some .directory else disk.changes.lookup place

/-- The disk after one change. -/
def set (disk : Disk) (place : List String) (entry : Entry) : Disk :=
  ⟨(place, entry) :: disk.changes⟩

/-- The longest name of an entry, in bytes. -/
def longestName : Nat := 255

/-- The longest path, in bytes. -/
def longestPath : Nat := 4095

/-- The place one component further, which need not hold anything. -/
def step (place : List String) : Component → Except FileError (List String)
  | .root => .ok []
  | .current => .ok place
  | .parent => .ok place.dropLast
  | .name text =>
    if longestName < text.utf8ByteSize then .error .nameTooLong else .ok (place ++ [text])

/-- The directory at the end of the components, which must all be there. -/
def enter (disk : Disk) : List String → List Component → Except FileError (List String)
  | place, [] => .ok place
  | place, c :: cs => do
    let next ← step place c
    match disk.lookup next with
    | some .directory => disk.enter next cs
    | some (.document _) => .error .notADirectory
    | none => .error .notFound

/-- The disk with the directories along the components, each created where nothing is. -/
def createAlong (disk : Disk) : List String → List Component → Except FileError Disk
  | _, [] => .ok disk
  | place, c :: cs => do
    let next ← step place c
    match disk.lookup next with
    | some .directory => disk.createAlong next cs
    | some (.document _) => .error (if cs = [] then .alreadyExists else .notADirectory)
    | none => (disk.set next .directory).createAlong next cs

/-- Whether the text can be a path at all. -/
def checkPath (path : String) : Except FileError Unit :=
  if path.toList.contains '\x00' then .error .nulInPath
  else if longestPath < path.utf8ByteSize then .error .nameTooLong
  else .ok ()

/-- The disk with all directories above `path`. -/
def createParents (disk : Disk) (path : String) : Except FileError Disk := do
  checkPath path
  disk.createAlong workingPlace (components path).dropLast

/-- The directory `path` leads to and the name in it. A path that ends in a slash or in `.` or
`..` names a directory. -/
def locate (disk : Disk) (path : String) : Except FileError (List String) := do
  checkPath path
  match (segmentsOf path).getLast? with
  | some "" =>
    match disk.lookup (← walk disk (components path)) with
    | some (.document _) => .error .notADirectory
    | _ => .error (if path.isEmpty then .notFound else .isADirectory)
  | some "." | some ".." =>
    let _ ← disk.enter workingPlace (components path)
    .error .isADirectory
  | _ => walk disk (components path)
where
  /-- The segments of a path, empty ones too. -/
  segmentsOf (path : String) : List String := Text.segments '/' path
  /-- The place of the last component, in a directory that is there. -/
  walk (disk : Disk) (cs : List Component) : Except FileError (List String) := do
    let place ← disk.enter workingPlace cs.dropLast
    match cs.getLast? with
    | none => .ok place
    | some c => step place c

/-- The disk with `content` as the document at `path`, whose directory must be there. -/
def write (disk : Disk) (path : String) (content : ByteArray) : Except FileError Disk := do
  let place ← disk.locate path
  match disk.lookup place with
  | some .directory => .error .isADirectory
  | _ => .ok (disk.set place (.document content))

/-- The document at `path`. -/
def read (disk : Disk) (path : String) : Except FileError ByteArray := do
  let place ← disk.locate path
  match disk.lookup place with
  | some (.document content) => .ok content
  | some .directory => .error .isADirectory
  | none => .error .notFound

/-- The places with something on them, each once. -/
def places (disk : Disk) : List (List String) := (disk.changes.map Prod.fst).eraseDups

/-- The documents below the working directory, with their places seen from it. -/
def documents (disk : Disk) : List (List String × ByteArray) :=
  disk.places.filterMap fun place =>
    match disk.lookup place with
    | some (.document content) =>
      if place.take workingPlace.length = workingPlace then
        some (place.drop workingPlace.length, content)
      else none
    | _ => none

end Disk

end SchemaForge
