import SchemaForge.Proofs.Resolver.FieldKeys
import SchemaForge.Proofs.Resolver.Nodes
import SchemaForge.Resolver.Strip
set_option autoImplicit false

/-!
# The content of a schema

For the references of a schema two things matter: the options lists of its nodes, from which
references come, and the urls under which its fields are looked up, to which they go.

## Main definitions

* `SchemaForge.Content` — options lists and urls of fields.
* `SchemaForge.SchemaFile.content` — those of a file.

## Main results

* `SchemaForge.SchemaFile.options_content`, `SchemaForge.SchemaFile.keys_content` — they are the
  options lists of all its nodes, and the urls of all its fields.
* `SchemaForge.SchemaFile.content_strip` — stripping changes nothing but the options lists.
-/

namespace SchemaForge

/-! ### Contents -/

/-- What parts of a schema have to do with references: the options lists of their nodes, and the
urls under which their fields are looked up. -/
@[ext]
structure Content where
  options : List Options
  keys : List MemberUrl

namespace Content

instance : Append Content where
  append c d := ⟨c.options ++ d.options, c.keys ++ d.keys⟩

@[simp] theorem options_append (c d : Content) : (c ++ d).options = c.options ++ d.options := rfl

@[simp] theorem keys_append (c d : Content) : (c ++ d).keys = c.keys ++ d.keys := rfl

theorem append_assoc (c d e : Content) : c ++ d ++ e = c ++ (d ++ e) := by
  ext1
  · exact List.append_assoc _ _ _
  · exact List.append_assoc _ _ _

/-- No content. -/
def empty : Content := ⟨[], []⟩

@[simp] theorem append_empty (c : Content) : c ++ empty = c := by
  ext1
  · exact List.append_nil _
  · exact List.append_nil _

@[simp] theorem empty_append (c : Content) : empty ++ c = c := rfl

/-- The content of a node that is not a field, without what is below it. -/
def ofOptions (options : Options) : Content := ⟨[options], []⟩

/-- The content of all members of a list. -/
def ofAll {α : Type} (content : α → Content) (list : List α) : Content :=
  ⟨list.flatMap fun a => (content a).options, list.flatMap fun a => (content a).keys⟩

variable {α : Type} (content : α → Content)

@[simp] theorem ofAll_nil : ofAll content [] = empty := rfl

@[simp] theorem ofAll_cons (a : α) (list : List α) :
    ofAll content (a :: list) = content a ++ ofAll content list := rfl

@[simp] theorem ofAll_append (list more : List α) :
    ofAll content (list ++ more) = ofAll content list ++ ofAll content more := by
  ext1
  · exact List.flatMap_append
  · exact List.flatMap_append

end Content

/-- The url of a field of the message `owner`. -/
def plainKey (owner : DeclUrl) (field : Field) : MemberUrl := ⟨owner, field.name⟩

/-- The url of a field of an extend block for the type `owner`. -/
def qualifiedKey (owner : DeclUrl) (field : Field) : MemberUrl := ⟨owner, field.qualifiedName⟩

/-- The content of a field with a certain url. -/
def Field.content (key : Field → MemberUrl) (field : Field) : Content :=
  ⟨[field.options], [key field]⟩

/-- The content of a oneof group of the message `owner`. -/
def OneOf.content (owner : DeclUrl) (group : OneOf) : Content :=
  .ofOptions group.options ++ .ofAll (Field.content (plainKey owner)) group.fields

/-- The content of an extend block. -/
def Extend.content (block : Extend) : Content :=
  .ofAll (Field.content (qualifiedKey block.target)) block.fields

/-- The content of a constant. -/
def EnumConstant.content (constant : EnumConstant) : Content := .ofOptions constant.options

/-- The content of an rpc. -/
def Rpc.content (rpc : Rpc) : Content := .ofOptions rpc.options

/-- The content of a service. -/
def Service.content (service : Service) : Content :=
  .ofOptions service.options ++ .ofAll Rpc.content service.rpcs

/-- The content of the members of the type `owner`. -/
def TypeBody.content (owner : DeclUrl) : TypeBody → Content
  | .message fields oneOfs =>
    .ofAll (Field.content (plainKey owner)) fields ++ .ofAll (OneOf.content owner) oneOfs
  | .enumeration constants => .ofAll EnumConstant.content constants
  | .enclosing => .empty

/-- The content of a type without the types nested in it. -/
def TypeDecl.ownContent (type : TypeDecl) : Content :=
  .ofOptions type.head.options ++
    (type.head.body.content type.url ++ .ofAll Extend.content type.extensions)

/-- The content of a forest of types. -/
def TypeDecl.contentOfAll (types : List TypeDecl) : Content :=
  .ofAll TypeDecl.ownContent (TypeDecl.preorderAll types)

/-- The content of a file. -/
def SchemaFile.content (file : SchemaFile) : Content :=
  .ofOptions file.options ++ (.ofAll Service.content file.services ++
    (.ofAll Extend.content file.extensions ++ TypeDecl.contentOfAll file.types))

/-! ### What the content is made of -/

theorem OneOf.options_content (owner : DeclUrl) (group : OneOf) :
    (group.content owner).options = optionLists group.nodes := by
  rw [OneOf.optionLists_nodes]
  simp [content, Content.ofOptions, Content.ofAll, Field.content, ← List.map_eq_flatMap]

theorem Extend.options_content (block : Extend) :
    block.content.options = optionLists block.nodes := by
  rw [Extend.optionLists_nodes]
  simp [content, Content.ofAll, Field.content, ← List.map_eq_flatMap]

theorem Service.options_content (service : Service) :
    service.content.options = optionLists service.nodes := by
  rw [Service.optionLists_nodes]
  simp [content, Rpc.content, Content.ofOptions, Content.ofAll, ← List.map_eq_flatMap]

theorem TypeBody.options_content (owner : DeclUrl) (body : TypeBody) :
    (body.content owner).options = optionLists body.nodes := by
  cases body with
  | message fields oneOfs =>
    rw [nodes, optionLists_append, optionLists_flatMap, optionLists_map (fun _ => rfl)]
    simp [content, Content.ofAll, Field.content, OneOf.options_content, ← List.map_eq_flatMap]
  | enumeration constants =>
    rw [nodes, optionLists_map (fun _ => rfl)]
    simp [content, EnumConstant.content, Content.ofOptions, Content.ofAll, ← List.map_eq_flatMap]
  | enclosing => rfl

theorem TypeDecl.options_ownContent (type : TypeDecl) :
    type.ownContent.options = optionLists type.ownNodes := by
  rw [TypeDecl.optionLists_ownNodes]
  simp [ownContent, Content.ofOptions, Content.ofAll, TypeBody.options_content,
    Extend.options_content]

/-- The options lists of a file are those of its nodes. -/
theorem SchemaFile.options_content (file : SchemaFile) :
    file.content.options = optionLists file.nodes := by
  rw [SchemaFile.optionLists_nodes, TypeDecl.nodesOfAll, optionLists_flatMap]
  simp [content, Content.ofOptions, Content.ofAll, TypeDecl.contentOfAll,
    Service.options_content, Extend.options_content, TypeDecl.options_ownContent]

theorem Extend.keys_content (block : Extend) : block.content.keys = block.fieldKeys := by
  simp [content, fieldKeys, Content.ofAll, Field.content, qualifiedKey, ← List.map_eq_flatMap]

theorem OneOf.keys_content (owner : DeclUrl) (group : OneOf) :
    (group.content owner).keys = group.fields.map (plainKey owner) := by
  simp [content, Content.ofOptions, Content.ofAll, Field.content, ← List.map_eq_flatMap]

theorem TypeBody.keys_content (owner : DeclUrl) (body : TypeBody) :
    (body.content owner).keys = body.fieldKeys owner := by
  cases body with
  | message fields oneOfs =>
    change _ = (fields ++ oneOfs.flatMap OneOf.fields).map (plainKey owner)
    rw [List.map_append, List.map_flatMap]
    simp [content, Content.ofAll, Field.content, OneOf.keys_content, ← List.map_eq_flatMap]
  | enumeration constants =>
    simp [content, EnumConstant.content, fieldKeys, allFields, Content.ofAll, Content.ofOptions]
  | enclosing => rfl

theorem TypeDecl.keys_ownContent (type : TypeDecl) : type.ownContent.keys = type.ownKeys := by
  simp [ownContent, ownKeys, Content.ofOptions, Content.ofAll, TypeBody.keys_content,
    Extend.keys_content]

/-- The urls of a file are those under which its fields are looked up. -/
theorem SchemaFile.keys_content (file : SchemaFile) : file.content.keys = file.fieldKeys := by
  simp [content, fieldKeys, TypeDecl.contentOfAll, TypeDecl.keysOfAll, Content.ofOptions,
    Content.ofAll, Service.content, Rpc.content, Extend.keys_content, TypeDecl.keys_ownContent]

/-! ### Stripping -/

section Strip

variable (removed : MemberUrl → Bool)

/-- The content without the options of removed fields. -/
def Content.strip (c : Content) : Content :=
  ⟨c.options.map (Options.without removed), c.keys⟩

@[simp] theorem Content.strip_append (c d : Content) :
    (c ++ d).strip removed = c.strip removed ++ d.strip removed := by
  simp [strip, Content.ext_iff]

/-- All members of a list are stripped if each of them is. -/
theorem Content.ofAll_map_of_strip {α : Type} {content : α → Content} {strip : α → α}
    (h : ∀ a, content (strip a) = (content a).strip removed) (list : List α) :
    ofAll content (list.map strip) = (ofAll content list).strip removed := by
  induction list with
  | nil => rfl
  | cons a list ih => rw [List.map_cons, ofAll_cons, ofAll_cons, h, ih, strip_append]

/-- A field that is stripped is looked up under the same urls. -/
theorem Field.content_strip {key : Field → MemberUrl}
    (hkey : ∀ field : Field, key (field.strip removed) = key field) (field : Field) :
    (field.strip removed).content key = (field.content key).strip removed := by
  rw [content, content, hkey]
  rfl

theorem OneOf.content_strip (owner : DeclUrl) (group : OneOf) :
    (group.strip removed).content owner = (group.content owner).strip removed := by
  have hkey : ∀ field : Field, plainKey owner (field.strip removed) = plainKey owner field :=
    fun _ => rfl
  rw [content, content, Content.strip_append,
    ← Content.ofAll_map_of_strip removed (Field.content_strip removed hkey)]
  rfl

theorem Extend.content_strip (block : Extend) :
    (block.strip removed).content = block.content.strip removed := by
  have hkey : ∀ field : Field,
      qualifiedKey block.target (field.strip removed) = qualifiedKey block.target field :=
    fun _ => rfl
  exact Content.ofAll_map_of_strip removed (Field.content_strip removed hkey) block.fields

theorem Service.content_strip (service : Service) :
    (service.strip removed).content = service.content.strip removed := by
  have hrpc : ∀ rpc : Rpc, (rpc.strip removed).content = rpc.content.strip removed :=
    fun _ => rfl
  rw [content, content, Content.strip_append, ← Content.ofAll_map_of_strip removed hrpc]
  rfl

theorem TypeBody.content_strip (owner : DeclUrl) (body : TypeBody) :
    (body.strip removed).content owner = (body.content owner).strip removed := by
  cases body with
  | message fields oneOfs =>
    have hkey : ∀ field : Field, plainKey owner (field.strip removed) = plainKey owner field :=
      fun _ => rfl
    rw [content, Content.strip_append,
      ← Content.ofAll_map_of_strip removed (Field.content_strip removed hkey),
      ← Content.ofAll_map_of_strip removed (OneOf.content_strip removed owner)]
    rfl
  | enumeration constants =>
    have hconstant : ∀ constant : EnumConstant,
        (constant.strip removed).content = constant.content.strip removed := fun _ => rfl
    exact Content.ofAll_map_of_strip removed hconstant constants
  | enclosing => rfl

theorem TypeDecl.ownContent_strip (type : TypeDecl) :
    (type.strip removed).ownContent = type.ownContent.strip removed := by
  obtain ⟨head, nested⟩ := type
  rw [ownContent, ownContent, Content.strip_append, Content.strip_append]
  rw [← Content.ofAll_map_of_strip removed (Extend.content_strip removed)]
  rw [← TypeBody.content_strip]
  rfl

mutual

/-- The declarations of a type that is stripped are those of the type, stripped. -/
theorem TypeDecl.preorder_strip :
    ∀ type : TypeDecl, (type.strip removed).preorder = type.preorder.map (TypeDecl.strip removed)
  | ⟨head, nested⟩ => by
    rw [TypeDecl.strip, preorder, preorder, preorderAll_stripAll nested, List.map_cons,
      TypeDecl.strip]

/-- The declarations of a forest that is stripped are those of the forest, stripped. -/
theorem TypeDecl.preorderAll_stripAll :
    ∀ types : List TypeDecl, TypeDecl.preorderAll (TypeDecl.stripAll removed types) =
      (TypeDecl.preorderAll types).map (TypeDecl.strip removed)
  | [] => rfl
  | type :: types => by
    rw [TypeDecl.stripAll, preorderAll, preorderAll, TypeDecl.preorder_strip type,
      preorderAll_stripAll types, List.map_append]

end

/-- **Stripping.** A file that is stripped has the same fields, and its options lists without the
options of removed fields. -/
theorem SchemaFile.content_strip (file : SchemaFile) :
    (file.strip removed).content = file.content.strip removed := by
  have htypes : TypeDecl.contentOfAll (TypeDecl.stripAll removed file.types) =
      (TypeDecl.contentOfAll file.types).strip removed := by
    rw [TypeDecl.contentOfAll, TypeDecl.preorderAll_stripAll]
    exact Content.ofAll_map_of_strip removed (TypeDecl.ownContent_strip removed) _
  rw [content, content, Content.strip_append, Content.strip_append, Content.strip_append,
    ← Content.ofAll_map_of_strip removed (Service.content_strip removed),
    ← Content.ofAll_map_of_strip removed (Extend.content_strip removed), ← htypes]
  rfl

end Strip

end SchemaForge
