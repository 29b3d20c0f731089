import SchemaForge.Text.Split
set_option autoImplicit false

/-!
# Paths

A path is a text with slashes between its segments. Empty segments and segments `.` say nothing,
save a `.` at the beginning of a relative path.

## Main definitions

* `SchemaForge.Path.Component`, `SchemaForge.Path.components` — a path taken apart.
* `SchemaForge.Path.join` — a path below another one.
* `SchemaForge.Path.withExtension` — a path with the extension of its last name replaced.
* `SchemaForge.Path.isBelow` — a path whose components are all names.
-/

namespace SchemaForge.Path

open Text

/-- One component of a path. -/
inductive Component where
  /-- The slash at the beginning of an absolute path. -/
  | root
  /-- The `.` at the beginning of a relative path. -/
  | current
  | parent
  | name (text : String)
  deriving DecidableEq, Repr, Inhabited

/-- The component a segment stands for, if it says anything behind the first one. -/
def componentOf? (segment : List Char) : Option Component :=
  if segment = [] || segment = ['.'] then none
  else if segment = ['.', '.'] then some .parent
  else some (.name (String.ofList segment))

/-- The components of a path. -/
def componentsOf (path : List Char) : List Component :=
  let segments := segmentChars '/' path
  let start : List Component :=
    match path, segments with
    | '/' :: _, _ => [.root]
    | _, ['.'] :: _ => [.current]
    | _, _ => []
  start ++ segments.filterMap componentOf?

/-- The components of a path. -/
def components (path : String) : List Component := componentsOf path.toList

/-- Whether the path begins at the root. -/
def isAbsolute (path : String) : Bool := path.toList.head? == some '/'

/-- The path `next` seen from `path`: an absolute path stands for itself, any other is put behind a
slash. -/
def join (path next : String) : String :=
  if isAbsolute next || path.isEmpty then next
  else if path.toList.getLast? = some '/' then path ++ next
  else path ++ "/" ++ next

/-- Whether all components are names, so that the path leads below where it starts. -/
def isBelow (path : String) : Bool :=
  (components path).all fun
    | .name _ => true
    | _ => false

/-- A path read backwards, without the slashes and the segments `.` at its end. -/
def dropTail : List Char → List Char
  | '/' :: rest => dropTail rest
  | '.' :: '/' :: rest => dropTail rest
  | rest => rest

/-- What stands before the last name of a path, and the name. A path that ends in `.` or `..`, or
has no segments, has no last name. -/
def splitName? (path : List Char) : Option (List Char × List Char) :=
  let backwards := dropTail path.reverse
  let name := (backwards.takeWhile (· != '/')).reverse
  if name = [] || name = ['.'] || name = ['.', '.'] then none
  else some ((backwards.dropWhile (· != '/')).reverse, name)

/-- A name cut at its last dot. A dot at the beginning does not begin an extension. -/
def splitExtension (name : List Char) : List Char × Option (List Char) :=
  match splitLastChars '.' name with
  | none => (name, none)
  | some ([], _) => (name, none)
  | some (stem, extension) => (stem, some extension)

/-- The path with `extension` behind the stem of its last name, all else of the name and what
follows it dropped. A path without a last name stays as it is. -/
def replaceFrom (extension path : List Char) : List Char :=
  match splitName? path with
  | none => path
  | some (before, name) => before ++ (splitExtension name).1 ++ '.' :: extension

/-- The path with the extension of its last name replaced. The old extension is cut off first,
counted from the end of the path; a name `..x` becomes `..` this way, and has no last name then. -/
def withExtension (extension path : String) : String :=
  let chars := path.toList
  let shortened :=
    match (splitName? chars).bind fun (_, name) => (splitExtension name).2 with
    | none => chars
    | some old => chars.take (chars.length - old.length)
  String.ofList (replaceFrom extension.toList shortened)

end SchemaForge.Path
