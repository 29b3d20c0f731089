import SchemaForge.Schema.Document.Record
import SchemaForge.Schema.File
set_option autoImplicit false

/-!
# Schemas as JSON documents: reading

## Main definitions

* `SchemaForge.SchemaFile.ofJson` — the file a document holds.
* `SchemaForge.schemaOfJson?` — the list of files a document holds, if it opens no more than 127
  arrays and objects at once.
-/

namespace SchemaForge

namespace Reader

/-- A declaration url. -/
def declUrl : Reader DeclUrl := textAs DeclUrl.mk

/-- A member url. -/
def memberUrl : Reader MemberUrl := fun room json => do
  let r ← Record.read ["type_url", "member_name"] room json
  return { owner := ← r.get "type_url" declUrl, member := ← r.get "member_name" text }

/-- A location. -/
def location : Reader Location := fun room json => do
  let r ← Record.read ["base_path", "relative_path", "line", "column"] room json
  return {
    basePath := ← r.get "base_path" (textAs SourcePath.mk)
    relativePath := ← r.get "relative_path" (textAs SourcePath.mk)
    line := ← r.getOptional "line" uint32
    column := ← r.getOptional "column" uint32 }

/-- An option value with at most `depth` levels of messages. -/
def optionValueWithin : Nat → Reader OptionValue
  | 0 => fun _ _ => none
  | depth + 1 => variant fun key =>
    match key with
    | "Raw" => some (textAs OptionValue.raw)
    | "RawMap" => some fun room json => (list (pair text text) room json).map .rawMap
    | "MessageMap" => some fun room json =>
      (list (pair memberUrl (optionValueWithin depth)) room json).map .messageMap
    | _ => none

/-- An option value; each level of messages opens an object. -/
def optionValue : Reader OptionValue := fun room json => optionValueWithin room room json

/-- An option. -/
def schemaOption : Reader SchemaOption := fun room json => do
  let r ← Record.read ["name", "field_url", "value"] room json
  return {
    name := ← r.get "name" text
    field := ← r.get "field_url" memberUrl
    value := ← r.getOptional "value" optionValue }

/-- The options of an element. -/
def options : Reader Options := list schemaOption

/-- The label with the given word. -/
def label? (word : String) : Option Label :=
  match word with
  | "None" => some .singular
  | "OneOf" => some .oneOf
  | "Repeated" => some .repeated
  | _ => none

/-- A label: its word, or an object with the word as key and `null` as value. -/
def label : Reader Label
  | _, .string (some word) => label? word
  | _ + 1, .object [(some word, .null)] => label? word
  | _, _ => none

/-- A field. -/
def field : Reader Field := fun room json => do
  let r ← Record.read ["tag", "name", "options", "documentation", "type_url", "label",
    "location", "is_extension", "namespaces"] room json
  return {
    tag := ← r.get "tag" int32
    name := ← r.get "name" text
    options := ← r.get "options" options
    documentation := ← r.get "documentation" text
    typeUrl := ← r.get "type_url" declUrl
    label := ← r.get "label" label
    location := ← r.get "location" location
    isExtension := ← r.get "is_extension" bool
    scopeNames := ← r.get "namespaces" (list text) }

/-- A oneof group. -/
def oneOf : Reader OneOf := fun room json => do
  let r ← Record.read ["name", "fields", "documentation", "options", "location"] room json
  return {
    name := ← r.get "name" text
    fields := ← r.get "fields" (list field)
    documentation := ← r.get "documentation" text
    options := ← r.get "options" options
    location := ← r.get "location" location }

/-- An extend block. -/
def extend : Reader Extend := fun room json => do
  let r ← Record.read ["type_url", "name", "fields", "documentation", "location"] room json
  return {
    target := ← r.get "type_url" declUrl
    name := ← r.get "name" text
    fields := ← r.get "fields" (list field)
    documentation := ← r.get "documentation" text
    location := ← r.get "location" location }

/-- An enumeration constant. -/
def enumConstant : Reader EnumConstant := fun room json => do
  let r ← Record.read ["name", "tag", "options", "documentation", "location"] room json
  return {
    name := ← r.get "name" text
    tag := ← r.get "tag" int32
    options := ← r.get "options" options
    documentation := ← r.get "documentation" text
    location := ← r.get "location" location }

/-- What all kinds of type declarations have in common. -/
def typeDecl (record : Record) (body : TypeBody) (nested : Reader TypeDecl) : Option TypeDecl := do
  return {
    head := {
      name := ← record.get "name" text
      documentation := ← record.get "documentation" text
      url := ← record.get "type_url" declUrl
      options := ← record.get "options" options
      location := ← record.get "location" location
      extensions := ← record.get "nested_extends" (list extend)
      body }
    nested := ← record.get "nested_types" (list nested) }

/-- A message. -/
def message (nested : Reader TypeDecl) : Reader TypeDecl := fun room json => do
  let r ← Record.read ["name", "documentation", "fields", "one_ofs", "options", "type_url",
    "nested_extends", "nested_types", "location"] room json
  typeDecl r (.message (← r.get "fields" (list field)) (← r.get "one_ofs" (list oneOf))) nested

/-- An enumeration. -/
def enumeration (nested : Reader TypeDecl) : Reader TypeDecl := fun room json => do
  let r ← Record.read ["name", "constants", "documentation", "options", "type_url",
    "nested_extends", "nested_types", "location"] room json
  typeDecl r (.enumeration (← r.get "constants" (list enumConstant))) nested

/-- A type that only scopes others. -/
def enclosing (nested : Reader TypeDecl) : Reader TypeDecl := fun room json => do
  let r ← Record.read ["name", "documentation", "type_url", "nested_extends", "options",
    "location", "nested_types"] room json
  typeDecl r .enclosing nested

/-- A type declaration with at most `depth` levels. -/
def typeWithin : Nat → Reader TypeDecl
  | 0 => fun _ _ => none
  | depth + 1 => variant fun key =>
    match key with
    | "Message" => some (message (typeWithin depth))
    | "Enum" => some (enumeration (typeWithin depth))
    | "Enclosing" => some (enclosing (typeWithin depth))
    | _ => none

/-- A type declaration; each level opens an object. -/
def type : Reader TypeDecl := fun room json => typeWithin room room json

/-- What an rpc transfers in one direction. -/
def payload : Reader Payload := fun room json => do
  let r ← Record.read ["is_streaming", "type_url"] room json
  return { isStreaming := ← r.get "is_streaming" bool, url := ← r.get "type_url" declUrl }

/-- An rpc. -/
def rpc : Reader Rpc := fun room json => do
  let r ← Record.read ["name", "request_type", "response_type", "options", "documentation",
    "location"] room json
  return {
    name := ← r.get "name" text
    request := ← r.get "request_type" payload
    response := ← r.get "response_type" payload
    options := ← r.get "options" options
    documentation := ← r.get "documentation" text
    location := ← r.get "location" location }

/-- A service. -/
def service : Reader Service := fun room json => do
  let r ← Record.read ["name", "rpcs", "options", "type_url", "location"] room json
  return {
    name := ← r.get "name" text
    rpcs := ← r.get "rpcs" (list rpc)
    options := ← r.get "options" options
    url := ← r.get "type_url" declUrl
    location := ← r.get "location" location }

/-- A schema file. -/
def schemaFile : Reader SchemaFile := fun room json => do
  let r ← Record.read ["name", "package_name", "options", "services", "extends", "location",
    "imports", "types"] room json
  return {
    name := ← r.get "name" text
    package := ← r.get "package_name" (textAs PackageName.mk)
    options := ← r.get "options" options
    services := ← r.get "services" (list service)
    extensions := ← r.get "extends" (list extend)
    location := ← r.get "location" location
    imports := ← r.get "imports" (list (textAs SourcePath.mk))
    types := ← r.get "types" (list type) }

end Reader

/-- The number of arrays and objects a schema document may open at once. -/
def nestingLimit : Nat := 127

/-- The file a document holds. -/
def SchemaFile.ofJson? (json : Json) : Option SchemaFile := Reader.schemaFile nestingLimit json

/-- The files a document holds. -/
def schemaOfJson? (json : Json) : Option (List SchemaFile) :=
  Reader.list Reader.schemaFile nestingLimit json

end SchemaForge
