import SchemaForge.Schema.File
set_option autoImplicit false

/-!
# Taking removed fields out of options

When fields leave a schema, the options that refer to them lose their meaning. Stripping a node
takes these options, and the message entries that refer to removed fields, out of every options
list of the node and of everything below it, and changes nothing else.

## Main definitions

* `SchemaForge.SchemaFile.strip` — a file without the options of removed fields.
-/

namespace SchemaForge

variable (removed : MemberUrl → Bool)

/-- The field without the options of removed fields. -/
def Field.strip (field : Field) : Field := { field with options := field.options.without removed }

/-- The group and its members without the options of removed fields. -/
def OneOf.strip (group : OneOf) : OneOf :=
  { group with
    options := group.options.without removed
    fields := group.fields.map (Field.strip removed) }

/-- The extend block, which has no options, with its fields stripped. -/
def Extend.strip (block : Extend) : Extend :=
  { block with fields := block.fields.map (Field.strip removed) }

/-- The constant without the options of removed fields. -/
def EnumConstant.strip (constant : EnumConstant) : EnumConstant :=
  { constant with options := constant.options.without removed }

/-- The rpc without the options of removed fields. -/
def Rpc.strip (rpc : Rpc) : Rpc := { rpc with options := rpc.options.without removed }

/-- The service and its rpcs without the options of removed fields. -/
def Service.strip (service : Service) : Service :=
  { service with
    options := service.options.without removed
    rpcs := service.rpcs.map (Rpc.strip removed) }

/-- The members of a type, stripped. -/
def TypeBody.strip : TypeBody → TypeBody
  | .message fields oneOfs =>
    .message (fields.map (Field.strip removed)) (oneOfs.map (OneOf.strip removed))
  | .enumeration constants => .enumeration (constants.map (EnumConstant.strip removed))
  | .enclosing => .enclosing

/-- The type without what is nested in it, stripped. -/
def TypeHead.strip (head : TypeHead) : TypeHead :=
  { head with
    options := head.options.without removed
    extensions := head.extensions.map (Extend.strip removed)
    body := head.body.strip removed }

mutual

/-- The type and all types below it, stripped. -/
def TypeDecl.strip : TypeDecl → TypeDecl
  | ⟨head, nested⟩ => ⟨head.strip removed, TypeDecl.stripAll nested⟩

/-- Each type of a forest, stripped. -/
def TypeDecl.stripAll : List TypeDecl → List TypeDecl
  | [] => []
  | type :: types => type.strip :: TypeDecl.stripAll types

end

/-- The file and everything in it without the options of removed fields. -/
def SchemaFile.strip (file : SchemaFile) : SchemaFile :=
  { file with
    options := file.options.without removed
    services := file.services.map (Service.strip removed)
    extensions := file.extensions.map (Extend.strip removed)
    types := TypeDecl.stripAll removed file.types }

/-- Stripping a forest strips each of its trees. -/
theorem TypeDecl.stripAll_eq_map (types : List TypeDecl) :
    TypeDecl.stripAll removed types = types.map (TypeDecl.strip removed) := by
  induction types with
  | nil => rfl
  | cons type types ih => simp [TypeDecl.stripAll, ih]

end SchemaForge
