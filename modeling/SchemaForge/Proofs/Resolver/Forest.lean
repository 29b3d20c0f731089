import SchemaForge.Proofs.Resolver.Nodes
import SchemaForge.Resolver.Lookup
import SchemaForge.Resolver.Strip
set_option autoImplicit false

/-!
# The trees of a schema

The nodes of a schema form a forest: below a file are its services, extend blocks and types, and
below these their members. A field stands for a member of the type that it is looked up with, which
is the message around it or the type that is extended. So each place in the forest has a node and,
where it is a field, this type.

A node holds everything below it. Where the nodes of two forests are compared one by one, each is
taken by itself, without its members and without what is nested in it.

## Main definitions

* `SchemaForge.Forest` — ordered trees side by side.
* `SchemaForge.Site` — a place in the forest of a schema.
* `SchemaForge.Resolver.forest` — the forest of a schema.
* `SchemaForge.Node.emptied`, `SchemaForge.Forest.outline` — nodes without what is below them.

## Main results

* `SchemaForge.Resolver.nodes_forest` — the nodes of the forest, each before those below it.
* `SchemaForge.SchemaFile.outline_strip` — stripping changes nothing but options.
-/

namespace SchemaForge

/-! ### Forests -/

/-- Ordered trees side by side: the first one, with what is below its root, and the others. -/
inductive Forest (α : Type) where
  | nil
  | node (label : α) (below rest : Forest α)
  deriving DecidableEq

namespace Forest

variable {α β : Type}

/-- The trees of the first forest, then those of the second one. -/
def append : Forest α → Forest α → Forest α
  | nil, g => g
  | node label below rest, g => node label below (rest.append g)

instance : Append (Forest α) := ⟨append⟩

@[simp] theorem nil_append (g : Forest α) : nil ++ g = g := rfl

@[simp] theorem node_append (label : α) (below rest g : Forest α) :
    node label below rest ++ g = node label below (rest ++ g) := rfl

@[simp] theorem append_nil (f : Forest α) : f ++ nil = f := by
  induction f with
  | nil => rfl
  | node label below rest _ ih => rw [node_append, ih]

@[simp] theorem append_assoc (f g h : Forest α) : f ++ g ++ h = f ++ (g ++ h) := by
  induction f with
  | nil => rfl
  | node label below rest _ ih => simp only [node_append, ih]

/-- The labels, each before those below it. -/
def labels : Forest α → List α
  | nil => []
  | node label below rest => label :: (below.labels ++ rest.labels)

@[simp] theorem labels_append (f g : Forest α) : (f ++ g).labels = f.labels ++ g.labels := by
  induction f with
  | nil => rfl
  | node label below rest _ ih => simp [labels, ih]

/-- The forest of the same shape with other labels. -/
def map (f : α → β) : Forest α → Forest β
  | nil => nil
  | node label below rest => node (f label) (below.map f) (rest.map f)

@[simp] theorem map_append (f : α → β) (g h : Forest α) :
    (g ++ h).map f = g.map f ++ h.map f := by
  induction g with
  | nil => rfl
  | node label below rest _ ih => simp [map, ih]

@[simp] theorem labels_map (f : α → β) (g : Forest α) : (g.map f).labels = g.labels.map f := by
  induction g with
  | nil => rfl
  | node label below rest ihBelow ihRest => simp [map, labels, ihBelow, ihRest]

theorem map_map {γ : Type} (g : β → γ) (f : α → β) (h : Forest α) :
    (h.map f).map g = h.map fun label => g (f label) := by
  induction h with
  | nil => rfl
  | node label below rest ihBelow ihRest => simp [map, ihBelow, ihRest]

theorem map_id (h : Forest α) : (h.map fun label => label) = h := by
  induction h with
  | nil => rfl
  | node label below rest ihBelow ihRest => simp [map, ihBelow, ihRest]

/-- A single tree. -/
def tree (label : α) (below : Forest α) : Forest α := node label below nil

/-- The forests of all members of a list, side by side. -/
def ofAll (forest : α → Forest β) : List α → Forest β
  | [] => nil
  | a :: list => forest a ++ ofAll forest list

variable (forest : α → Forest β)

@[simp] theorem ofAll_nil : ofAll forest [] = nil := rfl

@[simp] theorem ofAll_cons (a : α) (list : List α) :
    ofAll forest (a :: list) = forest a ++ ofAll forest list := rfl

@[simp] theorem ofAll_append (list more : List α) :
    ofAll forest (list ++ more) = ofAll forest list ++ ofAll forest more := by
  induction list with
  | nil => rfl
  | cons a list ih => simp [ih]

end Forest

/-! ### Nodes by themselves -/

/-- The kind of a type, without members. -/
def TypeBody.emptied : TypeBody → TypeBody
  | .message _ _ => .message [] []
  | .enumeration _ => .enumeration []
  | .enclosing => .enclosing

namespace Node

/-- The node without what is below it. -/
def emptied : Node → Node
  | .file f => .file { f with services := [], extensions := [], types := [] }
  | .service s => .service { s with rpcs := [] }
  | .type t => .type ⟨{ t.head with extensions := [], body := t.head.body.emptied }, []⟩
  | .extend b => .extend { b with fields := [] }
  | .field f => .field f
  | .oneOf g => .oneOf { g with fields := [] }
  | .constant c => .constant c
  | .rpc r => .rpc r

/-- The node with other options; an extend block has none. -/
def mapOptions (change : Options → Options) : Node → Node
  | .file f => .file { f with options := change f.options }
  | .service s => .service { s with options := change s.options }
  | .type t => .type ⟨{ t.head with options := change t.head.options }, t.nested⟩
  | .extend b => .extend b
  | .field f => .field { f with options := change f.options }
  | .oneOf g => .oneOf { g with options := change g.options }
  | .constant c => .constant { c with options := change c.options }
  | .rpc r => .rpc { r with options := change r.options }

/-- The node without what is below it and without options. -/
def bare (node : Node) : Node := node.emptied.mapOptions fun _ => []

@[simp] theorem options?_emptied (node : Node) : node.emptied.options? = node.options? := by
  cases node <;> rfl

@[simp] theorem options?_mapOptions (change : Options → Options) (node : Node) :
    (node.mapOptions change).options? = node.options?.map change := by
  cases node <;> rfl

theorem mapOptions_mapOptions (second first : Options → Options) (node : Node) :
    (node.mapOptions first).mapOptions second = node.mapOptions (second ∘ first) := by
  cases node <;> rfl

theorem mapOptions_id (node : Node) : node.mapOptions id = node := by
  cases node with
  | type t =>
    cases t
    rfl
  | _ => rfl

end Node

/-! ### The forest of a schema -/

/-- A place in the forest of a schema: its node and, where this is a field, the type that the field
is looked up with. -/
structure Site where
  node : Node
  owner? : Option DeclUrl
  deriving DecidableEq

namespace Site

/-- The place with nothing below its node. -/
def emptied (site : Site) : Site := { site with node := site.node.emptied }

/-- The place with other options. -/
def mapOptions (change : Options → Options) (site : Site) : Site :=
  { site with node := site.node.mapOptions change }

end Site

/-- A field of the message `owner`, or of an extend block for this type. -/
def Field.forest (owner : DeclUrl) (field : Field) : Forest Site :=
  .tree ⟨.field field, some owner⟩ .nil

/-- A oneof group of the message `owner`, with its members below. -/
def OneOf.forest (owner : DeclUrl) (group : OneOf) : Forest Site :=
  .tree ⟨.oneOf group, none⟩ (.ofAll (Field.forest owner) group.fields)

/-- An extend block, with its fields below. -/
def Extend.forest (block : Extend) : Forest Site :=
  .tree ⟨.extend block, none⟩ (.ofAll (Field.forest block.target) block.fields)

/-- A constant. -/
def EnumConstant.forest (constant : EnumConstant) : Forest Site :=
  .tree ⟨.constant constant, none⟩ .nil

/-- An rpc. -/
def Rpc.forest (rpc : Rpc) : Forest Site := .tree ⟨.rpc rpc, none⟩ .nil

/-- A service, with its rpcs below. -/
def Service.forest (service : Service) : Forest Site :=
  .tree ⟨.service service, none⟩ (.ofAll Rpc.forest service.rpcs)

/-- The fields and the oneof groups of the message `owner`, or the constants of an enumeration. -/
def TypeBody.forest (owner : DeclUrl) : TypeBody → Forest Site
  | .message fields oneOfs =>
    .ofAll (Field.forest owner) fields ++ .ofAll (OneOf.forest owner) oneOfs
  | .enumeration constants => .ofAll EnumConstant.forest constants
  | .enclosing => .nil

mutual

/-- A type, with its members, its extend blocks and the types nested in it below. -/
def TypeDecl.forest : TypeDecl → Forest Site
  | ⟨head, nested⟩ => .tree ⟨.type ⟨head, nested⟩, none⟩
    (head.body.forest head.url ++ (.ofAll Extend.forest head.extensions ++
      TypeDecl.forestOfAll nested))

/-- Types side by side. -/
def TypeDecl.forestOfAll : List TypeDecl → Forest Site
  | [] => .nil
  | type :: types => type.forest ++ TypeDecl.forestOfAll types

end

/-- What is below a type. -/
def TypeDecl.forestBelow (type : TypeDecl) : Forest Site :=
  type.head.body.forest type.head.url ++ (.ofAll Extend.forest type.head.extensions ++
    TypeDecl.forestOfAll type.nested)

theorem TypeDecl.forest_eq (type : TypeDecl) :
    type.forest = .tree ⟨.type type, none⟩ type.forestBelow := by
  obtain ⟨head, nested⟩ := type
  rw [forest]
  rfl

/-- A file, with its services, its extend blocks and its types below. -/
def SchemaFile.forest (file : SchemaFile) : Forest Site :=
  .tree ⟨.file file, none⟩ (.ofAll Service.forest file.services ++
    (.ofAll Extend.forest file.extensions ++ TypeDecl.forestOfAll file.types))

/-- The files of a schema side by side. -/
def Resolver.forest (resolver : Resolver) : Forest Site :=
  .ofAll SchemaFile.forest resolver.files

theorem TypeDecl.forestOfAll_eq (types : List TypeDecl) :
    TypeDecl.forestOfAll types = .ofAll TypeDecl.forest types := by
  induction types with
  | nil => rfl
  | cons type types ih => rw [forestOfAll, ih, Forest.ofAll_cons]

/-! ### The nodes of the forest -/

/-- The nodes of a forest, each before those below it. -/
def Forest.nodes (f : Forest Site) : List Node := f.labels.map Site.node

namespace Forest

@[simp] theorem nodes_append (f g : Forest Site) : (f ++ g).nodes = f.nodes ++ g.nodes := by
  simp [nodes]

@[simp] theorem nodes_tree (site : Site) (below : Forest Site) :
    (tree site below).nodes = site.node :: below.nodes := by
  simp [nodes, tree, labels]

/-- The nodes of the members of a list. -/
theorem nodes_ofAll {α : Type} {forest : α → Forest Site} {nodes : α → List Node}
    (h : ∀ a, (forest a).nodes = nodes a) (list : List α) :
    (ofAll forest list).nodes = list.flatMap nodes := by
  induction list with
  | nil => rfl
  | cons a list ih => simp [h, ih]

/-- The nodes of the members of a list that have nothing below them. -/
theorem nodes_ofAll_tree {α : Type} {site : α → Site} (list : List α) :
    (ofAll (fun a => tree (site a) nil) list).nodes = list.map fun a => (site a).node := by
  induction list with
  | nil => rfl
  | cons a list ih =>
    rw [ofAll_cons, nodes_append, nodes_tree, ih]
    rfl

end Forest

theorem Extend.nodes_forest (block : Extend) : block.forest.nodes = block.nodes :=
  (Forest.nodes_tree _ _).trans (congrArg _ (Forest.nodes_ofAll_tree block.fields))

theorem OneOf.nodes_forest (owner : DeclUrl) (group : OneOf) :
    (group.forest owner).nodes = group.nodes :=
  (Forest.nodes_tree _ _).trans (congrArg _ (Forest.nodes_ofAll_tree group.fields))

theorem Service.nodes_forest (service : Service) : service.forest.nodes = service.nodes :=
  (Forest.nodes_tree _ _).trans (congrArg _ (Forest.nodes_ofAll_tree service.rpcs))

theorem TypeBody.nodes_forest (owner : DeclUrl) (body : TypeBody) :
    (body.forest owner).nodes = body.nodes := by
  cases body with
  | message fields oneOfs =>
    rw [forest, Forest.nodes_append, Forest.nodes_ofAll (OneOf.nodes_forest owner)]
    exact congrArg (· ++ _) (Forest.nodes_ofAll_tree fields)
  | enumeration constants => exact Forest.nodes_ofAll_tree constants
  | enclosing => rfl

mutual

theorem TypeDecl.nodes_forest :
    ∀ type : TypeDecl, type.forest.nodes = type.preorder.flatMap TypeDecl.ownNodes
  | ⟨head, nested⟩ => by
    rw [TypeDecl.forest, Forest.nodes_tree, Forest.nodes_append, Forest.nodes_append,
      TypeBody.nodes_forest, Forest.nodes_ofAll Extend.nodes_forest,
      TypeDecl.nodes_forestOfAll nested, preorder]
    simp [TypeDecl.ownNodes, TypeDecl.nodesOfAll, TypeDecl.extensions]

theorem TypeDecl.nodes_forestOfAll :
    ∀ types : List TypeDecl, (TypeDecl.forestOfAll types).nodes = TypeDecl.nodesOfAll types
  | [] => rfl
  | type :: types => by
    rw [TypeDecl.forestOfAll, Forest.nodes_append, TypeDecl.nodes_forest type,
      TypeDecl.nodes_forestOfAll types]
    simp [TypeDecl.nodesOfAll, preorderAll]

end

/-- The nodes of the forest of a file are those of the file. -/
theorem SchemaFile.nodes_forest (file : SchemaFile) : file.forest.nodes = file.nodes := by
  rw [forest, Forest.nodes_tree, Forest.nodes_append, Forest.nodes_append,
    Forest.nodes_ofAll Service.nodes_forest, Forest.nodes_ofAll Extend.nodes_forest,
    TypeDecl.nodes_forestOfAll]
  simp [nodes]

/-- **Preorder.** The nodes of the forest of a schema are those of its files. -/
theorem Resolver.nodes_forest (resolver : Resolver) :
    resolver.forest.nodes = resolver.files.flatMap SchemaFile.nodes :=
  Forest.nodes_ofAll SchemaFile.nodes_forest resolver.files

/-! ### Outlines -/

namespace Forest

/-- The forest of nodes with nothing in them that is below them. -/
def outline (f : Forest Site) : Forest Site := f.map Site.emptied

/-- The forest with other options. -/
def mapOptions (change : Options → Options) (f : Forest Site) : Forest Site :=
  f.map (Site.mapOptions change)

@[simp] theorem outline_append (f g : Forest Site) : (f ++ g).outline = f.outline ++ g.outline :=
  map_append _ _ _

@[simp] theorem mapOptions_append (change : Options → Options) (f g : Forest Site) :
    (f ++ g).mapOptions change = f.mapOptions change ++ g.mapOptions change :=
  map_append _ _ _

theorem nodes_outline (f : Forest Site) : f.outline.nodes = f.nodes.map Node.emptied := by
  simp only [nodes, outline, labels_map, List.map_map]
  rfl

theorem nodes_mapOptions (change : Options → Options) (f : Forest Site) :
    (f.mapOptions change).nodes = f.nodes.map (Node.mapOptions change) := by
  simp only [nodes, mapOptions, labels_map, List.map_map]
  rfl

theorem outline_tree (site : Site) (below : Forest Site) :
    (tree site below).outline = tree site.emptied below.outline := rfl

/-- The outlines of the members of a list have other options if each of them has. -/
theorem outline_ofAll_map {α : Type} {forest : α → Forest Site} {change : Options → Options}
    {strip : α → α} (h : ∀ a, (forest (strip a)).outline = (forest a).outline.mapOptions change)
    (list : List α) :
    (ofAll forest (list.map strip)).outline = (ofAll forest list).outline.mapOptions change := by
  induction list with
  | nil => rfl
  | cons a list ih =>
    rw [List.map_cons, ofAll_cons, ofAll_cons, outline_append, outline_append, h, ih,
      mapOptions_append]

/-- So does the outline of a tree if its root does, by itself, and what is below it. -/
theorem outline_tree_mapOptions {change : Options → Options} {site root : Site}
    {below more : Forest Site} (hroot : root.emptied = site.emptied.mapOptions change)
    (hbelow : more.outline = below.outline.mapOptions change) :
    (tree root more).outline = (tree site below).outline.mapOptions change := by
  rw [outline_tree, outline_tree, hroot, hbelow]
  rfl

end Forest

section Strip

variable (removed : MemberUrl → Bool)

theorem Field.outline_strip (owner : DeclUrl) (field : Field) :
    ((field.strip removed).forest owner).outline =
      (field.forest owner).outline.mapOptions (Options.without removed) := rfl

theorem OneOf.outline_strip (owner : DeclUrl) (group : OneOf) :
    ((group.strip removed).forest owner).outline =
      (group.forest owner).outline.mapOptions (Options.without removed) :=
  Forest.outline_tree_mapOptions rfl
    (Forest.outline_ofAll_map (Field.outline_strip removed owner) group.fields)

theorem Extend.outline_strip (block : Extend) :
    (block.strip removed).forest.outline =
      block.forest.outline.mapOptions (Options.without removed) :=
  Forest.outline_tree_mapOptions rfl
    (Forest.outline_ofAll_map (Field.outline_strip removed block.target) block.fields)

theorem EnumConstant.outline_strip (constant : EnumConstant) :
    (constant.strip removed).forest.outline =
      constant.forest.outline.mapOptions (Options.without removed) := rfl

theorem Rpc.outline_strip (rpc : Rpc) :
    (rpc.strip removed).forest.outline =
      rpc.forest.outline.mapOptions (Options.without removed) := rfl

theorem Service.outline_strip (service : Service) :
    (service.strip removed).forest.outline =
      service.forest.outline.mapOptions (Options.without removed) :=
  Forest.outline_tree_mapOptions rfl
    (Forest.outline_ofAll_map (Rpc.outline_strip removed) service.rpcs)

theorem TypeBody.emptied_strip (body : TypeBody) : (body.strip removed).emptied = body.emptied := by
  cases body <;> rfl

theorem TypeBody.outline_strip (owner : DeclUrl) (body : TypeBody) :
    ((body.strip removed).forest owner).outline =
      (body.forest owner).outline.mapOptions (Options.without removed) := by
  cases body with
  | message fields oneOfs =>
    rw [forest, Forest.outline_append, Forest.mapOptions_append,
      ← Forest.outline_ofAll_map (Field.outline_strip removed owner),
      ← Forest.outline_ofAll_map (OneOf.outline_strip removed owner), ← Forest.outline_append]
    rfl
  | enumeration constants =>
    exact Forest.outline_ofAll_map (EnumConstant.outline_strip removed) constants
  | enclosing => rfl

mutual

theorem TypeDecl.outline_strip :
    ∀ type : TypeDecl, (type.strip removed).forest.outline =
      type.forest.outline.mapOptions (Options.without removed)
  | ⟨head, nested⟩ => by
    rw [TypeDecl.strip, TypeDecl.forest, TypeDecl.forest]
    refine Forest.outline_tree_mapOptions ?_ ?_
    · simp [Site.emptied, Site.mapOptions, Node.emptied, Node.mapOptions, TypeHead.strip,
        TypeBody.emptied_strip]
    · simp only [Forest.outline_append, Forest.mapOptions_append,
        ← TypeDecl.outline_stripAll nested, ← TypeBody.outline_strip,
        ← Forest.outline_ofAll_map (Extend.outline_strip removed)]
      rfl

theorem TypeDecl.outline_stripAll :
    ∀ types : List TypeDecl, (TypeDecl.forestOfAll (TypeDecl.stripAll removed types)).outline =
      (TypeDecl.forestOfAll types).outline.mapOptions (Options.without removed)
  | [] => rfl
  | type :: types => by
    rw [TypeDecl.stripAll, TypeDecl.forestOfAll, TypeDecl.forestOfAll, Forest.outline_append,
      Forest.outline_append, Forest.mapOptions_append, TypeDecl.outline_strip type,
      TypeDecl.outline_stripAll types]

end

/-- **Stripping.** The nodes of a file that is stripped are those of the file, by themselves, with
their options without those of removed fields. -/
theorem SchemaFile.outline_strip (file : SchemaFile) :
    (file.strip removed).forest.outline =
      file.forest.outline.mapOptions (Options.without removed) := by
  refine Forest.outline_tree_mapOptions rfl ?_
  simp only [Forest.outline_append, Forest.mapOptions_append,
    ← TypeDecl.outline_stripAll, ← Forest.outline_ofAll_map (Service.outline_strip removed),
    ← Forest.outline_ofAll_map (Extend.outline_strip removed)]
  rfl

end Strip

end SchemaForge
