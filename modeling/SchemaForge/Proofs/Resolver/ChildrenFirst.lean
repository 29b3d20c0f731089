import Mathlib.Algebra.GroupWithZero.Nat
import Mathlib.Data.List.Basic
import SchemaForge.Proofs.Resolver.Walk
set_option autoImplicit false

/-!
# Children before their parents

Where a descending visitor shows a node, it has just shown all that is below this node, and nothing
else since it began with that. So in the list of the nodes that it shows, each node stands right
behind those below it, at every place where it stands.

## Main definitions

* `SchemaForge.Node.descendants` — the nodes below a node, each before those below it.
* `SchemaForge.ChildrenFirst` — each node of a list stands right behind those below it.

## Main results

* `SchemaForge.Node.childrenFirst_postorder` — so it is with the nodes that a walk shows.
* `SchemaForge.SchemaFile.descending_shows_each_node` — the walk over a file.
-/

namespace SchemaForge

/-! ### Nodes below a node -/

namespace Node

/-- The nodes below a node, each before those below it. -/
def descendants : Node → List Node
  | .file f =>
    f.services.flatMap Service.nodes ++ f.extensions.flatMap Extend.nodes ++
      TypeDecl.nodesOfAll f.types
  | .service s => s.rpcs.map .rpc
  | .type t =>
    t.head.body.nodes ++ t.extensions.flatMap Extend.nodes ++ TypeDecl.nodesOfAll t.nested
  | .extend b => b.fields.map .field
  | .oneOf g => g.fields.map .field
  | .field _ | .constant _ | .rpc _ => []

/-- The type that a node is. -/
def type? : Node → Option TypeDecl
  | .type t => some t
  | _ => none

/-- The extend block that a node is. -/
def extend? : Node → Option Extend
  | .extend b => some b
  | _ => none

/-- A walk shows the nodes below a node in another order. -/
theorem below_perm (node : Node) : node.below.Perm node.descendants := by
  cases node with
  | file f =>
    exact parts_perm (flatMap_perm_flatMap Service.postorder_perm f.services)
      (TypeDecl.postorderAll_perm f.types)
      (flatMap_perm_flatMap Extend.postorder_perm f.extensions)
  | type t =>
    exact parts_perm t.head.body.postorder_perm (TypeDecl.postorderAll_perm t.nested)
      (flatMap_perm_flatMap Extend.postorder_perm t.extensions)
  | _ => exact .refl _

end Node

/-! ### Right behind what is below -/

/-- Each node of the list stands right behind the nodes below it. -/
def ChildrenFirst (nodes : List Node) : Prop :=
  ∀ before node after, nodes = before ++ node :: after → node.below <:+ before

namespace ChildrenFirst

variable {nodes more : List Node}

/-- So it is if nothing is below any of the nodes. -/
theorem of_leaves (h : ∀ node ∈ nodes, node.below = []) : ChildrenFirst nodes := by
  rintro before node after rfl
  rw [h node (by simp)]
  exact List.nil_suffix

theorem nil : ChildrenFirst [] := of_leaves (List.forall_mem_nil _)

/-- Two such lists may stand one behind the other. -/
theorem append (hnodes : ChildrenFirst nodes) (hmore : ChildrenFirst more) :
    ChildrenFirst (nodes ++ more) := by
  intro before node after h
  rcases List.append_eq_append_iff.1 h with ⟨between, rfl, hbetween⟩ | ⟨rest, hrest, hafter⟩
  · -- the node is one of the second list
    exact (hmore between node after hbetween).trans (List.suffix_append _ _)
  · cases rest with
    | nil =>
      -- it is the first one of the second list
      have hbelow : node.below <:+ [] := hmore [] node after hafter.symm
      rw [List.suffix_nil.1 hbelow]
      exact List.nil_suffix
    | cons first rest =>
      obtain ⟨rfl, -⟩ := List.cons.inj hafter
      exact hnodes before node rest hrest

/-- A node may stand behind the list of the nodes below it. -/
theorem postorder {node : Node} (h : ChildrenFirst node.below) : ChildrenFirst node.postorder := by
  intro before other after hsplit
  rcases List.eq_nil_or_concat after with rfl | ⟨after, last, rfl⟩
  · obtain ⟨hbefore, hother⟩ := List.append_inj' hsplit rfl
    obtain rfl := List.singleton_inj.1 hother
    exact hbefore ▸ List.suffix_refl _
  · have hlast : node.below ++ [node] = (before ++ other :: after) ++ [last] := by
      simpa [Node.postorder] using hsplit
    exact h before other after (List.append_inj' hlast rfl).1

/-- The lists of several members may stand one behind the other. -/
theorem flatMap {α : Type} {nodesOf : α → List Node} (h : ∀ a, ChildrenFirst (nodesOf a))
    (list : List α) : ChildrenFirst (list.flatMap nodesOf) := by
  induction list with
  | nil => exact nil
  | cons a list ih => exact (h a).append ih

/-- Nothing is below the members of this list. -/
theorem map {α : Type} {node : α → Node} (h : ∀ a, (node a).below = []) (list : List α) :
    ChildrenFirst (list.map node) :=
  of_leaves (List.forall_mem_map.2 fun a _ => h a)

end ChildrenFirst

/-! ### The walk -/

theorem Extend.childrenFirst_postorder (block : Extend) : ChildrenFirst block.postorder :=
  @ChildrenFirst.postorder (.extend block) (.map (fun _ => rfl) block.fields)

theorem OneOf.childrenFirst_postorder (group : OneOf) : ChildrenFirst group.postorder :=
  @ChildrenFirst.postorder (.oneOf group) (.map (fun _ => rfl) group.fields)

theorem Service.childrenFirst_postorder (service : Service) : ChildrenFirst service.postorder :=
  @ChildrenFirst.postorder (.service service) (.map (fun _ => rfl) service.rpcs)

theorem TypeBody.childrenFirst_postorder (body : TypeBody) : ChildrenFirst body.postorder := by
  cases body with
  | message fields oneOfs =>
    exact .append (.map (fun _ => rfl) fields) (.flatMap OneOf.childrenFirst_postorder oneOfs)
  | enumeration constants => exact .map (fun _ => rfl) constants
  | enclosing => exact .nil

mutual

theorem TypeDecl.childrenFirst_below :
    ∀ type : TypeDecl, ChildrenFirst (Node.type type).below
  | ⟨head, nested⟩ =>
    .append (.append head.body.childrenFirst_postorder (TypeDecl.childrenFirst_postorderAll nested))
      (.flatMap Extend.childrenFirst_postorder head.extensions)

theorem TypeDecl.childrenFirst_postorderAll :
    ∀ types : List TypeDecl, ChildrenFirst (TypeDecl.postorderAll types)
  | [] => .nil
  | type :: types => by
    rw [TypeDecl.postorderAll, TypeDecl.postorder_eq]
    exact .append (TypeDecl.childrenFirst_below type).postorder
      (TypeDecl.childrenFirst_postorderAll types)

end

/-- **Children first.** In the walk from a node each node stands right behind those below it. -/
theorem Node.childrenFirst_postorder (node : Node) : ChildrenFirst node.postorder := by
  refine ChildrenFirst.postorder ?_
  cases node with
  | file f =>
    exact .append (.append (.flatMap Service.childrenFirst_postorder f.services)
      (TypeDecl.childrenFirst_postorderAll f.types))
      (.flatMap Extend.childrenFirst_postorder f.extensions)
  | type t => exact TypeDecl.childrenFirst_below t
  | service s => exact .map (fun _ => rfl) s.rpcs
  | extend b => exact .map (fun _ => rfl) b.fields
  | oneOf g => exact .map (fun _ => rfl) g.fields
  | _ => exact .nil

/-! ### Types and extend blocks -/

/-- The node is neither a type nor an extend block. -/
def Node.Plain (node : Node) : Prop := node.type? = none ∧ node.extend? = none

theorem Service.plain_nodes (service : Service) : ∀ node ∈ service.nodes, node.Plain := by
  rw [nodes]
  exact List.forall_mem_cons.2 ⟨⟨rfl, rfl⟩, List.forall_mem_map.2 fun _ _ => ⟨rfl, rfl⟩⟩

theorem OneOf.plain_nodes (group : OneOf) : ∀ node ∈ group.nodes, node.Plain := by
  rw [nodes]
  exact List.forall_mem_cons.2 ⟨⟨rfl, rfl⟩, List.forall_mem_map.2 fun _ _ => ⟨rfl, rfl⟩⟩

theorem TypeBody.plain_nodes (body : TypeBody) : ∀ node ∈ body.nodes, node.Plain := by
  cases body with
  | message fields oneOfs =>
    refine List.forall_mem_append.2 ⟨List.forall_mem_map.2 fun _ _ => ⟨rfl, rfl⟩, ?_⟩
    exact List.forall_mem_flatMap.2 fun group _ => group.plain_nodes
  | enumeration constants => exact List.forall_mem_map.2 fun _ _ => ⟨rfl, rfl⟩
  | enclosing => exact List.forall_mem_nil _

section Picking

variable {α : Type} {pick : Node → Option α} (hpick : ∀ node : Node, node.Plain → pick node = none)
include hpick

/-- From plain nodes nothing is picked. -/
theorem Node.filterMap_eq_nil_of_plain {nodes : List Node} (h : ∀ node ∈ nodes, node.Plain) :
    nodes.filterMap pick = [] :=
  List.filterMap_eq_nil_iff.2 fun node hnode => hpick node (h node hnode)

/-- Of the nodes of an extend block only the block itself may be picked. -/
theorem Extend.filterMap_nodes (block : Extend) :
    block.nodes.filterMap pick = (pick (.extend block)).toList := by
  have hfields : (block.fields.map Node.field).filterMap pick = [] :=
    Node.filterMap_eq_nil_of_plain hpick (List.forall_mem_map.2 fun _ _ => ⟨rfl, rfl⟩)
  rw [nodes, List.filterMap_cons, hfields]
  cases pick (.extend block) <;> rfl

/-- Of the nodes of extend blocks only the blocks themselves may be picked. -/
theorem Extend.filterMap_flatMap_nodes (blocks : List Extend) :
    (blocks.flatMap Extend.nodes).filterMap pick =
      blocks.filterMap fun block => pick (.extend block) := by
  rw [List.filterMap_flatMap, funext (Extend.filterMap_nodes hpick),
    List.filterMap_eq_flatMap_toList]

/-- Of the nodes that belong to a type, the type and its extend blocks may be picked. -/
theorem TypeDecl.filterMap_ownNodes (type : TypeDecl) :
    type.ownNodes.filterMap pick =
      (pick (.type type)).toList ++
        type.extensions.filterMap fun block => pick (.extend block) := by
  have hbody : type.head.body.nodes.filterMap pick = [] :=
    Node.filterMap_eq_nil_of_plain hpick type.head.body.plain_nodes
  rw [ownNodes, List.filterMap_append, Extend.filterMap_flatMap_nodes hpick, List.filterMap_cons,
    hbody]
  cases pick (.type type) <;> rfl

/-- Of the nodes of a file, the extend blocks, the types and the extend blocks in these may be
picked. -/
theorem SchemaFile.filterMap_nodes (file : SchemaFile) :
    file.nodes.filterMap pick =
      (file.extensions.filterMap fun block => pick (.extend block)) ++
        (TypeDecl.preorderAll file.types).flatMap fun type =>
          (pick (.type type)).toList ++
            type.extensions.filterMap fun block => pick (.extend block) := by
  have hfile : pick (.file file) = none := hpick _ ⟨rfl, rfl⟩
  have hservices : (file.services.flatMap Service.nodes).filterMap pick = [] :=
    Node.filterMap_eq_nil_of_plain hpick
      (List.forall_mem_flatMap.2 fun service _ => service.plain_nodes)
  rw [nodes, List.filterMap_append, List.filterMap_append, List.filterMap_cons, hfile, hservices,
    Extend.filterMap_flatMap_nodes hpick, TypeDecl.nodesOfAll, List.filterMap_flatMap,
    funext (TypeDecl.filterMap_ownNodes hpick)]
  rfl

end Picking

/-- The types among the nodes of a file are all of its types. -/
theorem SchemaFile.types_nodes (file : SchemaFile) :
    (file.nodes.filterMap Node.type?).Perm file.allTypes := by
  have hnodes : file.nodes.filterMap Node.type? = TypeDecl.preorderAll file.types := by
    rw [SchemaFile.filterMap_nodes fun _ h => h.1]
    simp [Node.type?]
  rw [hnodes]
  exact (TypeDecl.levels_perm file.types).symm

/-- The extend blocks among the nodes of a file are all of its extend blocks. -/
theorem SchemaFile.extends_nodes (file : SchemaFile) :
    (file.nodes.filterMap Node.extend?).Perm file.allExtensions := by
  have hnodes : file.nodes.filterMap Node.extend? =
      file.extensions ++ (TypeDecl.preorderAll file.types).flatMap TypeDecl.extensions := by
    rw [SchemaFile.filterMap_nodes fun _ h => h.2]
    simp [Node.extend?]
  rw [hnodes]
  exact ((TypeDecl.levels_perm file.types).symm.flatMap_right _).append_left _

/-! ### The walk over a file -/

/-- **The walk over a file.** Whatever the handler does, a descending visitor of a file shows it the
nodes of the file, each once and with the data that it was given: a node right behind those below
it, and the file at the end. The types and the extend blocks among them are those of the file, and
so the nodes of a schema are counted file by file.

**Proof sketch.** The nodes shown are those below the file, each behind those below it. They are the
nodes of the file in another order, in which nested types and extend blocks have changed places. At
every place of that list the node stands right behind those below it, by induction on the types. -/
theorem SchemaFile.descending_shows_each_node (file : SchemaFile) :
    (∃ shown : List Node,
      (∀ (σ δ ρ : Type) (handler : Handler σ δ ρ) (data : δ),
        handler.descending (.file file) data =
          handler.showAll data shown >>= fun _ => handler (.file file) data) ∧
      (shown ++ [Node.file file]).Perm file.nodes ∧
      (∀ before node after, shown ++ [.file file] = before ++ node :: after →
        ∃ last, last <:+ before ∧ last.Perm node.descendants) ∧
      (shown.filterMap Node.type?).Perm file.allTypes ∧
      (shown.filterMap Node.extend?).Perm file.allExtensions) ∧
    ∀ files : List SchemaFile,
      countNodes files = (files.map fun file => file.nodes.length).sum := by
  have hnodes : ((Node.file file).below ++ [Node.file file]).Perm file.nodes := file.postorder_perm
  refine ⟨⟨(Node.file file).below, fun σ δ ρ handler data => handler.descending_eq data _, hnodes,
    ?_, ?_, ?_⟩, ?_⟩
  · intro before node after hsplit
    have hbelow : node.below <:+ before :=
      (Node.file file).childrenFirst_postorder before node after hsplit
    exact ⟨node.below, hbelow, node.below_perm⟩
  · -- the file at the end is not a type
    have hend : ((Node.file file).below ++ [Node.file file]).filterMap Node.type? =
        (Node.file file).below.filterMap Node.type? :=
      List.filterMap_append.trans (List.append_nil _)
    exact hend ▸ (hnodes.filterMap Node.type?).trans file.types_nodes
  · have hend : ((Node.file file).below ++ [Node.file file]).filterMap Node.extend? =
        (Node.file file).below.filterMap Node.extend? :=
      List.filterMap_append.trans (List.append_nil _)
    exact hend ▸ (hnodes.filterMap Node.extend?).trans file.extends_nodes
  · intro files
    rw [countNodes_eq_length, List.length_flatMap]

end SchemaForge
