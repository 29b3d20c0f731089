import SchemaForge.Resolver.Lookup
import SchemaForge.Resolver.Node
import SchemaForge.Resolver.Strip
set_option autoImplicit false

/-!
# Filtering a schema

A filter asks a keeper about every node from the top down. A rejected node takes everything below
it along, unasked. Of all fields that disappear the member urls are noted, and in the end the
options that refer to one of them are taken out of what is left.

## Main definitions

* `SchemaForge.Keeper` — a handler that decides whether a node is kept.
* `SchemaForge.Field.memberUrls`, `SchemaForge.TypeDecl.lostMembers` — the member urls that
  disappear with a node.
* `SchemaForge.Filtering` — a filter under way: the memory of the keeper and the urls noted.
* `SchemaForge.Resolver.filter` — the resolver over what is kept.
-/

namespace SchemaForge

/-- A handler that decides whether a node is kept. -/
abbrev Keeper (σ : Type) := Handler σ Unit Bool

/-! ### What disappears with a node -/

/-- The urls under which a field of `owner` is known: by its name and by its qualified name. -/
def Field.memberUrls (owner : DeclUrl) (field : Field) : List MemberUrl :=
  if field.qualifiedName = field.name then [⟨owner, field.name⟩]
  else [⟨owner, field.name⟩, ⟨owner, field.qualifiedName⟩]

/-- The member urls of all the fields of `owner`. -/
def lostFields (owner : DeclUrl) (fields : List Field) : List MemberUrl :=
  fields.flatMap (Field.memberUrls owner)

/-- The member urls that disappear with an extend block. -/
def Extend.lostMembers (block : Extend) : List MemberUrl := lostFields block.target block.fields

mutual

/-- The member urls that disappear with a type. -/
def TypeDecl.lostMembers : TypeDecl → List MemberUrl
  | ⟨head, nested⟩ =>
    lostFields head.url head.allFields ++ head.extensions.flatMap Extend.lostMembers ++
      TypeDecl.allLostMembers nested

/-- The member urls that disappear with the types of a forest. -/
def TypeDecl.allLostMembers : List TypeDecl → List MemberUrl
  | [] => []
  | type :: types => type.lostMembers ++ TypeDecl.allLostMembers types

end

/-- The member urls that disappear with a file. -/
def SchemaFile.lostMembers (file : SchemaFile) : List MemberUrl :=
  TypeDecl.allLostMembers file.types ++ file.extensions.flatMap Extend.lostMembers

/-! ### The filter under way -/

/-- The state of a filter: what the keeper remembers, and the member urls of the fields that have
disappeared. -/
structure Filtering (σ : Type) where
  memory : σ
  removed : List MemberUrl

namespace Keeper

variable {σ : Type} (keeper : Keeper σ)

/-- Asks the keeper about a node. -/
def ask (node : Node) : StateM (Filtering σ) Bool := fun state =>
  let (kept, memory) := keeper node () state.memory
  (kept, { state with memory })

/-- Notes member urls that have disappeared. -/
def note (urls : List MemberUrl) : StateM (Filtering σ) Unit :=
  modify fun state => { state with removed := state.removed ++ urls }

/-- Asks about a node; the answer is `cut` where it is kept, else nothing, and then `lost` has
disappeared. -/
def decide {α : Type} (node : Node) (lost : List MemberUrl) (cut : StateM (Filtering σ) α) :
    StateM (Filtering σ) (Option α) := do
  if ← keeper.ask node then return some (← cut)
  else
    note lost
    return none

/-- What is kept of a list, asked about from the left. -/
def each {α : Type} (filterOne : α → StateM (Filtering σ) (Option α)) :
    List α → StateM (Filtering σ) (List α)
  | [] => pure []
  | a :: rest => do
    let kept ← filterOne a
    let keptRest ← each filterOne rest
    return kept.toList ++ keptRest

/-- The fields of `owner` that are kept. -/
def filterFields (owner : DeclUrl) : List Field → StateM (Filtering σ) (List Field) :=
  each fun field => keeper.decide (.field field) (field.memberUrls owner) (pure field)

/-- What is kept of a oneof group of `owner`. -/
def filterOneOf (owner : DeclUrl) (group : OneOf) : StateM (Filtering σ) (Option OneOf) :=
  keeper.decide (.oneOf group) (lostFields owner group.fields) do
    return { group with fields := ← keeper.filterFields owner group.fields }

/-- What is kept of an extend block. -/
def filterExtend (block : Extend) : StateM (Filtering σ) (Option Extend) :=
  keeper.decide (.extend block) block.lostMembers do
    return { block with fields := ← keeper.filterFields block.target block.fields }

/-- What is kept of a constant. -/
def filterConstant (constant : EnumConstant) : StateM (Filtering σ) (Option EnumConstant) :=
  keeper.decide (.constant constant) [] (pure constant)

/-- What is kept of an rpc. -/
def filterRpc (rpc : Rpc) : StateM (Filtering σ) (Option Rpc) :=
  keeper.decide (.rpc rpc) [] (pure rpc)

/-- What is kept of a service. -/
def filterService (service : Service) : StateM (Filtering σ) (Option Service) :=
  keeper.decide (.service service) [] do
    return { service with rpcs := ← each keeper.filterRpc service.rpcs }

/-- What is kept of the members of the type `owner`. -/
def filterBody (owner : DeclUrl) : TypeBody → StateM (Filtering σ) TypeBody
  | .message fields oneOfs => do
    let fields ← keeper.filterFields owner fields
    let oneOfs ← each (keeper.filterOneOf owner) oneOfs
    return .message fields oneOfs
  | .enumeration constants => do return .enumeration (← each keeper.filterConstant constants)
  | .enclosing => pure .enclosing

mutual

/-- What is kept of a type: members, extend blocks and nested types are asked about in this
order. -/
def filterType : TypeDecl → StateM (Filtering σ) (Option TypeDecl)
  | ⟨head, nested⟩ =>
    keeper.decide (.type ⟨head, nested⟩) (TypeDecl.lostMembers ⟨head, nested⟩) do
      let body ← keeper.filterBody head.url head.body
      let extensions ← each keeper.filterExtend head.extensions
      let nested ← filterTypes nested
      return ⟨{ head with body, extensions }, nested⟩

/-- What is kept of a forest of types. -/
def filterTypes : List TypeDecl → StateM (Filtering σ) (List TypeDecl)
  | [] => pure []
  | type :: types => do
    let kept ← filterType type
    let keptTypes ← filterTypes types
    return kept.toList ++ keptTypes

end

/-- What is kept of a file: services, extend blocks and types are asked about in this order. -/
def filterFile (file : SchemaFile) : StateM (Filtering σ) (Option SchemaFile) :=
  keeper.decide (.file file) file.lostMembers do
    let services ← each keeper.filterService file.services
    let extensions ← each keeper.filterExtend file.extensions
    let types ← keeper.filterTypes file.types
    return { file with services, extensions, types }

end Keeper

namespace Resolver

/-- What is kept of the files before any options are stripped, and the filter in its last state. -/
def cut {σ : Type} (resolver : Resolver) (keeper : Keeper σ) (memory : σ) :
    List SchemaFile × Filtering σ :=
  (Keeper.each keeper.filterFile resolver.files).run ⟨memory, []⟩

/-- The resolver over what the keeper keeps, and what it remembers in the end. Where no field has
disappeared, the options stay as they are. -/
def filter {σ : Type} (resolver : Resolver) (keeper : Keeper σ) (memory : σ) : Resolver × σ :=
  let (files, last) := resolver.cut keeper memory
  if last.removed.isEmpty then (⟨files⟩, last.memory)
  else (⟨files.map (SchemaFile.strip last.removed.contains)⟩, last.memory)

/-- What a keeper without a memory keeps. -/
def filterBy (resolver : Resolver) (keep : Node → Bool) : Resolver :=
  (resolver.filter (fun node _ => pure (keep node) : Keeper Unit) ()).1

end Resolver

end SchemaForge
