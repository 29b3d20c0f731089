import SchemaForge.Schema.Service
import SchemaForge.Schema.TypeDecl
set_option autoImplicit false

/-!
# Schema files

## Main definitions

* `SchemaForge.SchemaFile` — one file of a schema, the root of a tree of declarations.
* `SchemaForge.SchemaFile.allTypes`, `SchemaForge.SchemaFile.allExtensions` — the declarations of a
  file at any depth, level by level.
* `SchemaForge.SchemaFile.packageFor` — the package in a target language.
-/

namespace SchemaForge

/-- One file of a schema. -/
structure SchemaFile where
  name : String
  package : PackageName
  options : Options
  services : List Service
  /-- The extend blocks at the top level. -/
  extensions : List Extend
  location : Location
  imports : List SourcePath
  /-- The type declarations at the top level. -/
  types : List TypeDecl
  deriving DecidableEq, Repr, Inhabited

namespace SchemaFile

/-- The types of the file at any depth, level by level. -/
def allTypes (file : SchemaFile) : List TypeDecl := TypeDecl.levels file.types

/-- The extend blocks of the file, then those declared inside its types. -/
def allExtensions (file : SchemaFile) : List Extend :=
  file.extensions ++ file.allTypes.flatMap TypeDecl.extensions

/-- The file option that names the package in `language`. -/
def packageOption? : Language → Option String
  | .java | .kotlin => some "java_package"
  | .php => some "php_namespace"
  | .csharp => some "csharp_namespace"
  | .go => some "go_package"
  | .ruby => some "ruby_package"
  | .python => none

/-- The package in `language`: the raw value of its file option, else the declared package. -/
def packageFor (file : SchemaFile) (language : Language) : PackageName :=
  match packageOption? language with
  | none => file.package
  | some option =>
    match (file.options.value? ⟨DeclUrl.fileOptions, option⟩).bind OptionValue.raw? with
    | some text => ⟨text⟩
    | none => file.package

/-- The service with the given name. -/
def service? (file : SchemaFile) (name : String) : Option Service :=
  file.services.find? fun service => service.name == name

end SchemaFile

end SchemaForge
