import SchemaForge.Schema.File
import SchemaForge.Wire.Codec
set_option autoImplicit false

/-!
# The binary form of schemas

## Main definitions

* the instances of `SchemaForge.Wire` for all elements of a schema.
* `SchemaForge.Field.parts` and the like — the parts of a record in the order of its binary form.
* `SchemaForge.OptionValue.encode`, `SchemaForge.TypeDecl.encode` — the two that nest, with their
  decoders `SchemaForge.OptionValue.decode` and `SchemaForge.TypeDecl.decode`.
-/

namespace SchemaForge

open Wire

instance : Wire DeclUrl := .via DeclUrl.text DeclUrl.mk

instance : Wire PackageName := .via PackageName.text PackageName.mk

instance : Wire SourcePath := .via SourcePath.text SourcePath.mk

/-- The parts of a member url, in the order of its binary form. -/
@[reducible]
def MemberUrl.parts (url : MemberUrl) := (url.owner, url.member)

instance : Wire MemberUrl := .via MemberUrl.parts fun (owner, member) => ⟨owner, member⟩

/-- The parts of a location, in the order of its binary form. -/
@[reducible]
def Location.parts (l : Location) := (l.basePath, l.relativePath, l.line, l.column)

instance : Wire Location :=
  .via Location.parts fun (basePath, relativePath, line, column) =>
    ⟨basePath, relativePath, line, column⟩

/-! ### Options -/

mutual

/-- The binary form of an option value. -/
def OptionValue.encode : OptionValue → Bytes
  | .raw text => choice 0 ++ Wire.encode text
  | .rawMap entries => choice 1 ++ Wire.encode entries
  | .messageMap entries => choice 2 ++ length entries.length ++ OptionValue.encodeEntries entries

/-- The binary form of the entries of a message value. -/
def OptionValue.encodeEntries : List (MemberUrl × OptionValue) → Bytes
  | [] => []
  | (url, value) :: entries =>
    Wire.encode url ++ value.encode ++ OptionValue.encodeEntries entries

end

/-- Reads an option value, given the reader of the values in it. -/
def OptionValue.decodeLevel (inner : Decoder OptionValue) : Decoder OptionValue := do
  match ← number 4 with
  | 0 => return .raw (← decode)
  | 1 => return .rawMap (← decode)
  | 2 =>
    return .messageMap (← listOf do
      let url ← decode
      let value ← inner
      return (url, value))
  | index => throw (.unknownChoice index 3)

/-- Reads an option value. -/
def OptionValue.decode : Decoder OptionValue := recursive OptionValue.decodeLevel

instance : Wire OptionValue := ⟨OptionValue.encode, OptionValue.decode⟩

/-- The parts of an option, in the order of its binary form. -/
@[reducible]
def SchemaOption.parts (o : SchemaOption) := (o.name, o.field, o.value)

instance : Wire SchemaOption :=
  .via SchemaOption.parts fun (name, field, value) => ⟨name, field, value⟩

/-! ### Fields -/

instance : Wire Label where
  encode
    | .singular => choice 0
    | .oneOf => choice 1
    | .repeated => choice 2
  decode := do
    match ← number 4 with
    | 0 => return .singular
    | 1 => return .oneOf
    | 2 => return .repeated
    | index => throw (.unknownChoice index 3)

/-- The parts of a field, in the order of its binary form. -/
@[reducible]
def Field.parts (f : Field) :=
  (f.tag, f.name, f.options, f.documentation, f.typeUrl, f.label, f.location, f.isExtension,
    f.scopeNames)

instance : Wire Field :=
  .via Field.parts
    fun (tag, name, options, documentation, typeUrl, label, location, isExtension, scopeNames) =>
      ⟨tag, name, options, documentation, typeUrl, label, location, isExtension, scopeNames⟩

/-- The parts of a oneof group, in the order of its binary form. -/
@[reducible]
def OneOf.parts (g : OneOf) := (g.name, g.fields, g.documentation, g.options, g.location)

instance : Wire OneOf :=
  .via OneOf.parts
    fun (name, fields, documentation, options, location) =>
      ⟨name, fields, documentation, options, location⟩

/-- The parts of an extend block, in the order of its binary form. -/
@[reducible]
def Extend.parts (e : Extend) := (e.target, e.name, e.fields, e.documentation, e.location)

instance : Wire Extend :=
  .via Extend.parts
    fun (target, name, fields, documentation, location) =>
      ⟨target, name, fields, documentation, location⟩

/-- The parts of a constant, in the order of its binary form. -/
@[reducible]
def EnumConstant.parts (c : EnumConstant) :=
  (c.name, c.tag, c.options, c.documentation, c.location)

instance : Wire EnumConstant :=
  .via EnumConstant.parts
    fun (name, tag, options, documentation, location) =>
      ⟨name, tag, options, documentation, location⟩

/-! ### Types -/

/-- The binary form of a type, given that of the list of types nested in it. The kind comes first
and decides the order of the parts. -/
def TypeHead.encode (head : TypeHead) (nested : Bytes) : Bytes :=
  match head.body with
  | .message fields oneOfs =>
    choice 0 ++
      Wire.encode (head.name, head.documentation, fields, oneOfs, head.options, head.url,
        head.extensions) ++
      nested ++ Wire.encode head.location
  | .enumeration constants =>
    choice 1 ++
      Wire.encode (head.name, constants, head.documentation, head.options, head.url,
        head.extensions) ++
      nested ++ Wire.encode head.location
  | .enclosing =>
    choice 2 ++
      Wire.encode (head.name, head.documentation, head.url, head.extensions, head.options,
        head.location) ++
      nested

mutual

/-- The binary form of a type. -/
def TypeDecl.encode : TypeDecl → Bytes
  | ⟨head, nested⟩ => head.encode (length nested.length ++ TypeDecl.encodeAll nested)

/-- The binary forms of the types of a forest. -/
def TypeDecl.encodeAll : List TypeDecl → Bytes
  | [] => []
  | type :: types => type.encode ++ TypeDecl.encodeAll types

end

/-- Reads a type, given the reader of the types nested in it. -/
def TypeDecl.decodeLevel (inner : Decoder TypeDecl) : Decoder TypeDecl := do
  match ← number 4 with
  | 0 =>
    let (name, documentation, fields, oneOfs, options, url, extensions) ← decode
    let nested ← listOf inner
    let location ← decode
    return ⟨⟨name, documentation, url, options, location, extensions, .message fields oneOfs⟩,
      nested⟩
  | 1 =>
    let (name, constants, documentation, options, url, extensions) ← decode
    let nested ← listOf inner
    let location ← decode
    return ⟨⟨name, documentation, url, options, location, extensions, .enumeration constants⟩,
      nested⟩
  | 2 =>
    let (name, documentation, url, extensions, options, location) ← decode
    let nested ← listOf inner
    return ⟨⟨name, documentation, url, options, location, extensions, .enclosing⟩, nested⟩
  | index => throw (.unknownChoice index 3)

/-- Reads a type. -/
def TypeDecl.decode : Decoder TypeDecl := recursive TypeDecl.decodeLevel

instance : Wire TypeDecl := ⟨TypeDecl.encode, TypeDecl.decode⟩

/-! ### Services and files -/

/-- The parts of a payload, in the order of its binary form. -/
@[reducible]
def Payload.parts (p : Payload) := (p.isStreaming, p.url)

instance : Wire Payload := .via Payload.parts fun (isStreaming, url) => ⟨isStreaming, url⟩

/-- The parts of an rpc, in the order of its binary form. -/
@[reducible]
def Rpc.parts (r : Rpc) :=
  (r.name, r.request, r.response, r.options, r.documentation, r.location)

instance : Wire Rpc :=
  .via Rpc.parts
    fun (name, request, response, options, documentation, location) =>
      ⟨name, request, response, options, documentation, location⟩

/-- The parts of a service, in the order of its binary form. -/
@[reducible]
def Service.parts (s : Service) := (s.name, s.rpcs, s.options, s.url, s.location)

instance : Wire Service :=
  .via Service.parts
    fun (name, rpcs, options, url, location) => ⟨name, rpcs, options, url, location⟩

/-- The parts of a file, in the order of its binary form. -/
@[reducible]
def SchemaFile.parts (f : SchemaFile) :=
  (f.name, f.package, f.options, f.services, f.extensions, f.location, f.imports, f.types)

instance : Wire SchemaFile :=
  .via SchemaFile.parts
    fun (name, package, options, services, extensions, location, imports, types) =>
      ⟨name, package, options, services, extensions, location, imports, types⟩

end SchemaForge
