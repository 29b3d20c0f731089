import SchemaForge.Json.Value
import SchemaForge.Schema.File
set_option autoImplicit false

/-!
# Schemas as JSON documents: writing

Every element is written as an object with all its members, in a fixed order; an absent value is
`null`. The kind of a type and the form of an option value are the key of an object with one
member.

## Main definitions

* `SchemaForge.SchemaFile.toJson` — the document of one file.
* `SchemaForge.schemaToJson` — the document of a list of files.
-/

namespace SchemaForge

open Json

/-- The document of a list. -/
def Json.list {α : Type} (write : α → Json) (items : List α) : Json := .array (items.map write)

/-- The document of a declaration url. -/
def DeclUrl.toJson (url : DeclUrl) : Json := .text url.text

/-- The document of a member url. -/
def MemberUrl.toJson (url : MemberUrl) : Json :=
  .record [("type_url", url.owner.toJson), ("member_name", .text url.member)]

/-- The document of a location. -/
def Location.toJson (location : Location) : Json :=
  .record [
    ("base_path", .text location.basePath.text),
    ("relative_path", .text location.relativePath.text),
    ("line", .ofOption (fun n => .natural n.toNat) location.line),
    ("column", .ofOption (fun n => .natural n.toNat) location.column)]

mutual

/-- The document of an option value. -/
def OptionValue.toJson : OptionValue → Json
  | .raw text => .record [("Raw", .text text)]
  | .rawMap entries =>
    .record [("RawMap", .list (fun (k, v) => .array [.text k, .text v]) entries)]
  | .messageMap entries => .record [("MessageMap", .array (OptionValue.entriesToJson entries))]

/-- The documents of the entries of a message value. -/
def OptionValue.entriesToJson : List (MemberUrl × OptionValue) → List Json
  | [] => []
  | (url, value) :: entries =>
    .array [url.toJson, value.toJson] :: OptionValue.entriesToJson entries

end

/-- The document of an option. -/
def SchemaOption.toJson (option : SchemaOption) : Json :=
  .record [
    ("name", .text option.name),
    ("field_url", option.field.toJson),
    ("value", .ofOption OptionValue.toJson option.value)]

/-- The document of the options of an element. -/
def Options.toJson (options : Options) : Json := .list SchemaOption.toJson options

/-- The word for a label. -/
def Label.word : Label → String
  | .singular => "None"
  | .oneOf => "OneOf"
  | .repeated => "Repeated"

/-- The document of a field. -/
def Field.toJson (field : Field) : Json :=
  .record [
    ("tag", .integer field.tag.toInt),
    ("name", .text field.name),
    ("options", field.options.toJson),
    ("documentation", .text field.documentation),
    ("type_url", field.typeUrl.toJson),
    ("label", .text field.label.word),
    ("location", field.location.toJson),
    ("is_extension", .bool field.isExtension),
    ("namespaces", .list Json.text field.scopeNames)]

/-- The document of a oneof group. -/
def OneOf.toJson (group : OneOf) : Json :=
  .record [
    ("name", .text group.name),
    ("fields", .list Field.toJson group.fields),
    ("documentation", .text group.documentation),
    ("options", group.options.toJson),
    ("location", group.location.toJson)]

/-- The document of an extend block. -/
def Extend.toJson (block : Extend) : Json :=
  .record [
    ("type_url", block.target.toJson),
    ("name", .text block.name),
    ("fields", .list Field.toJson block.fields),
    ("documentation", .text block.documentation),
    ("location", block.location.toJson)]

/-- The document of an enumeration constant. -/
def EnumConstant.toJson (constant : EnumConstant) : Json :=
  .record [
    ("name", .text constant.name),
    ("tag", .integer constant.tag.toInt),
    ("options", constant.options.toJson),
    ("documentation", .text constant.documentation),
    ("location", constant.location.toJson)]

/-- The document of a type declaration, given the documents of the nested declarations. The order
of the members depends on the kind. -/
def TypeHead.toJson (head : TypeHead) (nested : List Json) : Json :=
  match head.body with
  | .message fields oneOfs =>
    .record [("Message", .record [
      ("name", .text head.name),
      ("documentation", .text head.documentation),
      ("fields", .list Field.toJson fields),
      ("one_ofs", .list OneOf.toJson oneOfs),
      ("options", head.options.toJson),
      ("type_url", head.url.toJson),
      ("nested_extends", .list Extend.toJson head.extensions),
      ("nested_types", .array nested),
      ("location", head.location.toJson)])]
  | .enumeration constants =>
    .record [("Enum", .record [
      ("name", .text head.name),
      ("constants", .list EnumConstant.toJson constants),
      ("documentation", .text head.documentation),
      ("options", head.options.toJson),
      ("type_url", head.url.toJson),
      ("nested_extends", .list Extend.toJson head.extensions),
      ("nested_types", .array nested),
      ("location", head.location.toJson)])]
  | .enclosing =>
    .record [("Enclosing", .record [
      ("name", .text head.name),
      ("documentation", .text head.documentation),
      ("type_url", head.url.toJson),
      ("nested_extends", .list Extend.toJson head.extensions),
      ("options", head.options.toJson),
      ("location", head.location.toJson),
      ("nested_types", .array nested)])]

mutual

/-- The document of a type declaration. -/
def TypeDecl.toJson : TypeDecl → Json
  | ⟨head, nested⟩ => head.toJson (TypeDecl.allToJson nested)

/-- The documents of a forest of type declarations. -/
def TypeDecl.allToJson : List TypeDecl → List Json
  | [] => []
  | type :: types => type.toJson :: TypeDecl.allToJson types

end

/-- The document of what an rpc transfers in one direction. -/
def Payload.toJson (payload : Payload) : Json :=
  .record [("is_streaming", .bool payload.isStreaming), ("type_url", payload.url.toJson)]

/-- The document of an rpc. -/
def Rpc.toJson (rpc : Rpc) : Json :=
  .record [
    ("name", .text rpc.name),
    ("request_type", rpc.request.toJson),
    ("response_type", rpc.response.toJson),
    ("options", rpc.options.toJson),
    ("documentation", .text rpc.documentation),
    ("location", rpc.location.toJson)]

/-- The document of a service. -/
def Service.toJson (service : Service) : Json :=
  .record [
    ("name", .text service.name),
    ("rpcs", .list Rpc.toJson service.rpcs),
    ("options", service.options.toJson),
    ("type_url", service.url.toJson),
    ("location", service.location.toJson)]

/-- The document of a schema file. -/
def SchemaFile.toJson (file : SchemaFile) : Json :=
  .record [
    ("name", .text file.name),
    ("package_name", .text file.package.text),
    ("options", file.options.toJson),
    ("services", .list Service.toJson file.services),
    ("extends", .list Extend.toJson file.extensions),
    ("location", file.location.toJson),
    ("imports", .list (fun path => .text path.text) file.imports),
    ("types", .array (TypeDecl.allToJson file.types))]

/-- The document of a schema. -/
def schemaToJson (files : List SchemaFile) : Json := .list SchemaFile.toJson files

end SchemaForge
