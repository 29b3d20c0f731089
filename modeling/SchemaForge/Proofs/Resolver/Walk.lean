import SchemaForge.Proofs.Resolver.Nodes
set_option autoImplicit false

/-!
# The walk of a descending visitor

A descending visitor shows its handler each node behind all that is below it. So to walk a schema is
to show the nodes of a list, which holds the same nodes as the list in which each stands before
those below it, and a handler that counts its calls counts the nodes.

## Main definitions

* `SchemaForge.SchemaFile.postorder` — the nodes of a file, each behind those below it.
* `SchemaForge.Node.below` — the nodes below a node, in the same order.

## Main results

* `SchemaForge.Handler.descending_eq` — what a descending visitor of a node shows.
* `SchemaForge.SchemaFile.postorder_perm` — they are the nodes of the file.
* `SchemaForge.countNodes_eq_length` — the number of nodes of a schema.
-/

namespace SchemaForge

/-! ### Nodes behind those below them -/

/-- The fields, then the block. -/
def Extend.postorder (block : Extend) : List Node := block.fields.map .field ++ [.extend block]

/-- The members, then the group. -/
def OneOf.postorder (group : OneOf) : List Node := group.fields.map .field ++ [.oneOf group]

/-- The rpcs, then the service. -/
def Service.postorder (service : Service) : List Node :=
  service.rpcs.map .rpc ++ [.service service]

/-- The fields and the oneof groups of a message, or the constants of an enumeration. -/
def TypeBody.postorder : TypeBody → List Node
  | .message fields oneOfs => fields.map .field ++ oneOfs.flatMap OneOf.postorder
  | .enumeration constants => constants.map .constant
  | .enclosing => []

mutual

/-- What is in a type, then the type. -/
def TypeDecl.postorder : TypeDecl → List Node
  | ⟨head, nested⟩ =>
    head.body.postorder ++ TypeDecl.postorderAll nested ++
      head.extensions.flatMap Extend.postorder ++ [.type ⟨head, nested⟩]

/-- The nodes of types side by side. -/
def TypeDecl.postorderAll : List TypeDecl → List Node
  | [] => []
  | type :: types => type.postorder ++ TypeDecl.postorderAll types

end

/-- What is in a file, then the file. -/
def SchemaFile.postorder (file : SchemaFile) : List Node :=
  file.services.flatMap Service.postorder ++ TypeDecl.postorderAll file.types ++
    file.extensions.flatMap Extend.postorder ++ [.file file]

/-- What is below a node, each node behind those below it. -/
def Node.below : Node → List Node
  | .file f =>
    f.services.flatMap Service.postorder ++ TypeDecl.postorderAll f.types ++
      f.extensions.flatMap Extend.postorder
  | .service s => s.rpcs.map .rpc
  | .type t =>
    t.head.body.postorder ++ TypeDecl.postorderAll t.nested ++
      t.extensions.flatMap Extend.postorder
  | .extend b => b.fields.map .field
  | .oneOf g => g.fields.map .field
  | .field _ | .constant _ | .rpc _ => []

/-- What is below a node, then the node. -/
def Node.postorder (node : Node) : List Node := node.below ++ [node]

theorem TypeDecl.postorder_eq (type : TypeDecl) : type.postorder = (Node.type type).postorder := by
  obtain ⟨head, nested⟩ := type
  rw [TypeDecl.postorder]
  rfl

/-! ### Showing them -/

namespace Handler

variable {σ δ ρ : Type} (handler : Handler σ δ ρ) (data : δ)

/-- To show two lists of nodes is to show one and then the other. -/
theorem showAll_append (nodes more : List Node) :
    handler.showAll data (nodes ++ more) =
      handler.showAll data nodes >>= fun _ => handler.showAll data more := by
  induction nodes with
  | nil => rfl
  | cons node nodes ih => simp only [List.cons_append, showAll, ih, bind_assoc]

/-- A node shown behind others, with something to be done after it. -/
theorem showAll_append_singleton {β : Type} (nodes : List Node) (node : Node)
    (after : StateM σ β) :
    (handler.showAll data (nodes ++ [node]) >>= fun _ => after) =
      (handler.showAll data nodes >>= fun _ => handler node data) >>= fun _ => after := by
  simp only [showAll_append, showAll, bind_assoc, pure_bind]

/-- To walk a list, showing of each member what is below it and then its node, is to show the nodes
of all members. -/
theorem eq_showAll_flatMap {α : Type} {walk : List α → StateM σ Unit} {below : α → List Node}
    {node : α → Node} (hnil : walk [] = pure ())
    (hcons : ∀ a list, walk (a :: list) =
      (handler.showAll data (below a) >>= fun _ => handler (node a) data) >>= fun _ => walk list)
    (list : List α) :
    walk list = handler.showAll data (list.flatMap fun a => below a ++ [node a]) := by
  induction list with
  | nil => exact hnil
  | cons a list ih =>
    rw [hcons, ih, List.flatMap_cons, showAll_append _ _ (below a ++ [node a]),
      showAll_append_singleton]

theorem walkExtends_eq (blocks : List Extend) :
    handler.walkExtends data blocks =
      handler.showAll data (blocks.flatMap Extend.postorder) :=
  handler.eq_showAll_flatMap data rfl (fun _ _ => rfl) blocks

theorem walkOneOfs_eq (groups : List OneOf) :
    handler.walkOneOfs data groups =
      handler.showAll data (groups.flatMap OneOf.postorder) :=
  handler.eq_showAll_flatMap data rfl (fun _ _ => rfl) groups

theorem walkServices_eq (services : List Service) :
    handler.walkServices data services =
      handler.showAll data (services.flatMap Service.postorder) :=
  handler.eq_showAll_flatMap data rfl (fun _ _ => rfl) services

theorem walkBody_eq (body : TypeBody) :
    handler.walkBody data body = handler.showAll data body.postorder := by
  cases body with
  | message fields oneOfs => rw [walkBody, walkOneOfs_eq, TypeBody.postorder, showAll_append]
  | enumeration constants => rfl
  | enclosing => rfl

mutual

/-- A type is shown behind everything in it. -/
theorem walkType_eq :
    ∀ type : TypeDecl, handler.walkType data type =
      handler.showAll data (Node.type type).below >>= fun _ => handler (.type type) data
  | ⟨head, nested⟩ => by
    rw [walkType, walkTypes_eq nested, walkExtends_eq, walkBody_eq, Node.below, showAll_append,
      showAll_append]
    simp only [bind_assoc]
    rfl

/-- Types are shown one after the other. -/
theorem walkTypes_eq :
    ∀ types : List TypeDecl, handler.walkTypes data types =
      handler.showAll data (TypeDecl.postorderAll types)
  | [] => rfl
  | type :: types => by
    rw [walkTypes, walkTypes_eq types, walkType_eq type, TypeDecl.postorderAll,
      TypeDecl.postorder_eq, showAll_append _ _ (Node.postorder _), Node.postorder,
      showAll_append_singleton]

end

/-- A file is shown behind everything in it. -/
theorem walkFile_eq (file : SchemaFile) :
    handler.walkFile data file =
      handler.showAll data (Node.file file).below >>= fun _ => handler (.file file) data := by
  rw [walkFile, walkServices_eq, walkTypes_eq, walkExtends_eq, Node.below, showAll_append,
    showAll_append]
  simp only [bind_assoc]

/-- **The walk.** A descending visitor of a node shows its handler what is below the node, each node
behind those below it, and then the node itself; what the handler says of this one is the result. -/
theorem descending_eq (node : Node) :
    handler.descending node data =
      handler.showAll data node.below >>= fun _ => handler node data := by
  cases node with
  | file file => exact handler.walkFile_eq data file
  | type type => exact handler.walkType_eq data type
  | _ => rfl

/-- A descending visitor of several nodes shows the walk of each. -/
theorem showAll_descending_eq (nodes : List Node) :
    handler.descending.showAll data nodes =
      handler.showAll data (nodes.flatMap Node.postorder) := by
  induction nodes with
  | nil => rfl
  | cons node nodes ih =>
    rw [showAll, ih, List.flatMap_cons, descending_eq, showAll_append _ _ (Node.postorder _),
      Node.postorder, showAll_append_singleton]

/-- A descending visitor of the files of a schema shows its handler the nodes of the files, each
behind those below it. -/
theorem showAll_descending (files : List SchemaFile) :
    handler.descending.showAll data (files.map .file) =
      handler.showAll data (files.flatMap SchemaFile.postorder) := by
  rw [showAll_descending_eq, List.flatMap_map]
  rfl

end Handler

/-! ### The same nodes -/

theorem Extend.postorder_perm (block : Extend) : block.postorder.Perm block.nodes :=
  List.perm_append_singleton _ _

theorem OneOf.postorder_perm (group : OneOf) : group.postorder.Perm group.nodes :=
  List.perm_append_singleton _ _

theorem Service.postorder_perm (service : Service) : service.postorder.Perm service.nodes :=
  List.perm_append_singleton _ _

/-- The members of a list have the same nodes if each of them has. -/
theorem flatMap_perm_flatMap {α : Type} {nodes more : α → List Node}
    (h : ∀ a, (nodes a).Perm (more a)) (list : List α) :
    (list.flatMap nodes).Perm (list.flatMap more) := by
  induction list with
  | nil => exact .nil
  | cons a list ih => exact (h a).append ih

theorem TypeBody.postorder_perm (body : TypeBody) : body.postorder.Perm body.nodes := by
  cases body with
  | message fields oneOfs =>
    exact (flatMap_perm_flatMap OneOf.postorder_perm oneOfs).append_left _
  | enumeration constants => exact .refl _
  | enclosing => exact .refl _

/-- Three parts hold the same nodes as the same parts of which the last two have changed places. -/
theorem parts_perm {members nested blocks members' nested' blocks' : List Node}
    (hmembers : members.Perm members') (hnested : nested.Perm nested')
    (hblocks : blocks.Perm blocks') :
    (members ++ nested ++ blocks).Perm (members' ++ blocks' ++ nested') := by
  rw [List.append_assoc, List.append_assoc]
  exact hmembers.append (List.perm_append_comm.trans (hblocks.append hnested))

mutual

/-- What is in a type is the same, whether the type stands before it or behind it. -/
theorem TypeDecl.postorder_perm :
    ∀ type : TypeDecl, type.postorder.Perm (type.preorder.flatMap TypeDecl.ownNodes)
  | ⟨head, nested⟩ => by
    rw [TypeDecl.postorder, preorder, List.flatMap_cons]
    refine (List.perm_append_singleton _ _).trans (.cons _ ?_)
    exact parts_perm head.body.postorder_perm (TypeDecl.postorderAll_perm nested)
      (flatMap_perm_flatMap Extend.postorder_perm head.extensions)

theorem TypeDecl.postorderAll_perm :
    ∀ types : List TypeDecl, (TypeDecl.postorderAll types).Perm (TypeDecl.nodesOfAll types)
  | [] => .nil
  | type :: types => by
    rw [TypeDecl.postorderAll, TypeDecl.nodesOfAll, TypeDecl.preorderAll, List.flatMap_append]
    exact (TypeDecl.postorder_perm type).append (TypeDecl.postorderAll_perm types)

end

/-- The nodes of a file are those that stand behind those below them, in another order. -/
theorem SchemaFile.postorder_perm (file : SchemaFile) : file.postorder.Perm file.nodes := by
  refine (List.perm_append_singleton _ _).trans (.cons _ ?_)
  exact parts_perm (flatMap_perm_flatMap Service.postorder_perm file.services)
    (TypeDecl.postorderAll_perm file.types)
    (flatMap_perm_flatMap Extend.postorder_perm file.extensions)

/-! ### Counting -/

/-- The counting handler counts the nodes that it is shown. -/
theorem run_showAll_countingHandler (nodes : List Node) (count : Nat) :
    ((countingHandler.showAll () nodes).run count).2 = count + nodes.length := by
  induction nodes generalizing count with
  | nil => rfl
  | cons node nodes ih =>
    rw [Handler.showAll, StateT.run_bind]
    have hstep : (countingHandler node ()).run count = ((), count + 1) := rfl
    rw [hstep]
    exact (ih (count + 1)).trans (by rw [List.length_cons]; omega)

/-- **Counting.** The number of nodes of a schema is the number of the nodes of its files. -/
theorem countNodes_eq_length (files : List SchemaFile) :
    countNodes files = (files.flatMap SchemaFile.nodes).length := by
  rw [countNodes, Handler.showAll_descending, run_showAll_countingHandler, Nat.zero_add]
  exact (flatMap_perm_flatMap SchemaFile.postorder_perm files).length_eq

end SchemaForge
