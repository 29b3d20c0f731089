import SchemaForge.Proofs.Schema.Preorder
import SchemaForge.Resolver.Node
set_option autoImplicit false

/-!
# The nodes of a file

## Main definitions

* `SchemaForge.SchemaFile.nodes` — the nodes of a file, each before those below it.
* `SchemaForge.optionLists` — the options lists that nodes carry.
-/

namespace SchemaForge

/-- The block, then its fields. -/
def Extend.nodes (block : Extend) : List Node := .extend block :: block.fields.map .field

/-- The group, then its members. -/
def OneOf.nodes (group : OneOf) : List Node := .oneOf group :: group.fields.map .field

/-- The service, then its rpcs. -/
def Service.nodes (service : Service) : List Node := .service service :: service.rpcs.map .rpc

/-- The fields and the oneof groups of a message, or the constants of an enumeration. -/
def TypeBody.nodes : TypeBody → List Node
  | .message fields oneOfs => fields.map .field ++ oneOfs.flatMap OneOf.nodes
  | .enumeration constants => constants.map .constant
  | .enclosing => []

/-- The type and what belongs to it, without the types nested in it. -/
def TypeDecl.ownNodes (type : TypeDecl) : List Node :=
  .type type :: type.head.body.nodes ++ type.extensions.flatMap Extend.nodes

/-- The nodes of a forest of types. -/
def TypeDecl.nodesOfAll (types : List TypeDecl) : List Node :=
  (TypeDecl.preorderAll types).flatMap TypeDecl.ownNodes

/-- The file, its services, its extend blocks, and its types at any depth. -/
def SchemaFile.nodes (file : SchemaFile) : List Node :=
  .file file :: file.services.flatMap Service.nodes ++ file.extensions.flatMap Extend.nodes ++
    TypeDecl.nodesOfAll file.types

/-! ### Their options -/

/-- The options lists that the nodes carry. -/
def optionLists (nodes : List Node) : List Options := nodes.filterMap Node.options?

@[simp] theorem optionLists_append (nodes more : List Node) :
    optionLists (nodes ++ more) = optionLists nodes ++ optionLists more :=
  List.filterMap_append

theorem optionLists_flatMap {α : Type} (nodesOf : α → List Node) (list : List α) :
    optionLists (list.flatMap nodesOf) = list.flatMap fun a => optionLists (nodesOf a) :=
  List.filterMap_flatMap

/-- Members that are nodes with options carry their options. -/
theorem optionLists_map {α : Type} {node : α → Node} {options : α → Options}
    (h : ∀ a, (node a).options? = some (options a)) (list : List α) :
    optionLists (list.map node) = list.map options := by
  rw [optionLists, List.filterMap_map]
  have hnode : Node.options? ∘ node = some ∘ options := funext h
  rw [hnode, List.filterMap_eq_map]

theorem Extend.optionLists_nodes (block : Extend) :
    optionLists block.nodes = block.fields.map Field.options :=
  optionLists_map (fun _ => rfl) block.fields

theorem OneOf.optionLists_nodes (group : OneOf) :
    optionLists group.nodes = group.options :: group.fields.map Field.options :=
  congrArg (group.options :: ·) (optionLists_map (fun _ => rfl) group.fields)

theorem Service.optionLists_nodes (service : Service) :
    optionLists service.nodes = service.options :: service.rpcs.map Rpc.options :=
  congrArg (service.options :: ·) (optionLists_map (fun _ => rfl) service.rpcs)

theorem TypeDecl.optionLists_ownNodes (type : TypeDecl) :
    optionLists type.ownNodes = type.head.options :: (optionLists type.head.body.nodes ++
      type.extensions.flatMap fun block => optionLists block.nodes) := by
  rw [ownNodes, List.cons_append]
  refine congrArg (type.head.options :: ·) ?_
  rw [← optionLists_flatMap]
  exact optionLists_append _ _

theorem SchemaFile.optionLists_nodes (file : SchemaFile) :
    optionLists file.nodes = file.options ::
      (file.services.flatMap (fun service => optionLists service.nodes) ++
        file.extensions.flatMap (fun block => optionLists block.nodes) ++
        optionLists (TypeDecl.nodesOfAll file.types)) := by
  rw [nodes, List.cons_append, List.cons_append]
  refine congrArg (file.options :: ·) ?_
  rw [← optionLists_flatMap, ← optionLists_flatMap]
  exact (optionLists_append _ _).trans (congrArg (· ++ _) (optionLists_append _ _))

end SchemaForge
