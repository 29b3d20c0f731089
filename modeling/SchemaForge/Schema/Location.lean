import SchemaForge.Text.Blank
set_option autoImplicit false

/-!
# Source locations

## Main definitions

* `SchemaForge.PackageName`, `SchemaForge.SourcePath` — texts with a meaning of their own.
* `SchemaForge.Location` — where an element is declared.
* `SchemaForge.Location.fileKey` — the key of the file a location belongs to.
* `SchemaForge.Location.text` — the location as shown to a user.
-/

namespace SchemaForge

open Text

/-- The package a schema file declares. -/
structure PackageName where
  text : String
  deriving DecidableEq, Repr, Inhabited

/-- Whether no package is declared. -/
def PackageName.isEmpty (name : PackageName) : Bool := name.text.isEmpty

/-- A path as the loader of the schema wrote it. -/
structure SourcePath where
  text : String
  deriving DecidableEq, Repr, Inhabited

/-- Whether the path is empty or white space only. -/
def SourcePath.isBlank (path : SourcePath) : Bool := isBlankText path.text

/-- Where an element is declared. -/
structure Location where
  basePath : SourcePath
  relativePath : SourcePath
  line : Option UInt32
  column : Option UInt32
  deriving DecidableEq, Repr, Inhabited

namespace Location

/-- The location that says nothing. -/
def unknown : Location := ⟨⟨""⟩, ⟨""⟩, none, none⟩

/-- The same file at the given position. -/
def positioned (location : Location) (line column : UInt32) : Location :=
  { location with line := some line, column := some column }

/-- The key of the file the location belongs to, whatever the position in it. -/
def fileKey (location : Location) : String :=
  location.basePath.text ++ ":" ++ location.relativePath.text

/-- A colon and the number, if there is one. -/
def positionText (position : Option UInt32) : String :=
  match position with
  | none => ""
  | some n => ":" ++ toString n.toNat

/-- The base path, the relative path and the position, each left out when it says nothing. -/
def text (location : Location) : String :=
  if location.basePath.isBlank && location.relativePath.isBlank then "unknown"
  else
    (if location.basePath.isBlank then "" else location.basePath.text ++ ":") ++
      (if location.relativePath.isBlank then "" else location.relativePath.text) ++
      positionText location.line ++ positionText location.column

end Location

end SchemaForge
