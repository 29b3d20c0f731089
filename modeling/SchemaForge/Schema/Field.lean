import SchemaForge.Schema.Location
import SchemaForge.Schema.Options
set_option autoImplicit false

/-!
# Fields and oneof groups

## Main definitions

* `SchemaForge.Field`, `SchemaForge.OneOf` — a field of a message or of an extend block, and a
  group of mutually exclusive fields.
* `SchemaForge.Field.scope?` — the package and the types an extension field is declared in.
* `SchemaForge.Field.qualifiedName` — the name under which options refer to an extension field.
-/

namespace SchemaForge

open Text

/-- How often a field occurs. -/
inductive Label where
  | singular
  | oneOf
  | repeated
  deriving DecidableEq, Repr, Inhabited

/-- A field of a message or of an extend block. -/
structure Field where
  tag : Int32
  name : String
  options : Options
  documentation : String
  typeUrl : DeclUrl
  label : Label
  location : Location
  /-- Whether the field is declared in an extend block. -/
  isExtension : Bool
  /-- For an extension: the declaring package, then the names of the types around it. -/
  scopeNames : List String
  deriving DecidableEq, Repr, Inhabited

/-- The scope an extension field is declared in. -/
structure Scope where
  package : PackageName
  /-- The names of the types around the extension, outermost first. -/
  typeNames : List String
  deriving DecidableEq, Repr, Inhabited

namespace Field

/-- Whether the field belongs to a oneof group. -/
def isInOneOf (field : Field) : Bool := field.label == .oneOf

/-- Whether the field is repeated. -/
def isRepeated (field : Field) : Bool := field.label == .repeated

/-- The declaring scope, which only an extension field has. -/
def scope? (field : Field) : Option Scope :=
  if field.isExtension then
    match field.scopeNames with
    | [] => some ⟨⟨""⟩, []⟩
    | package :: typeNames => some ⟨⟨package⟩, typeNames⟩
  else none

/-- The name qualified by package and enclosing types; a plain field keeps its name. -/
def qualifiedName (field : Field) : String :=
  match field.scope? with
  | none => field.name
  | some scope =>
    String.intercalate "."
      ((if isBlankText scope.package.text then [] else [scope.package.text]) ++
        scope.typeNames ++ [field.name])

end Field

/-- A group of mutually exclusive fields. -/
structure OneOf where
  name : String
  fields : List Field
  documentation : String
  options : Options
  location : Location
  deriving DecidableEq, Repr, Inhabited

end SchemaForge
