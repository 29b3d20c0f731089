import SchemaForge.Proofs.Resolver.Forest
set_option autoImplicit false

/-!
# A schema is determined by its nodes

The nodes of a schema, each without what is below it, and the way they stand in the forest say all
there is to say: two schemas with the same outline are the same. So whatever is done to a schema may
be compared node by node.

Members of one kind stand side by side, and those of the next kind follow. Where a run of members
ends can be seen from the kinds of the nodes, so the lists of members can be read off a forest from
left to right.

## Main definitions

* `SchemaForge.Forest.StartsOff` — a forest that does not begin with a node of a certain kind.

## Main results

* `SchemaForge.Forest.ofAll_append_inj` — a run of members is read off a forest.
* `SchemaForge.Resolver.eq_of_outline_eq` — schemas with the same outline are the same.
-/

namespace SchemaForge

@[simp] theorem Node.kind_emptied (node : Node) : node.emptied.kind = node.kind := by
  cases node <;> rfl

/-! ### Runs of members -/

namespace Forest

/-- The forest does not begin with a node of the given kind. -/
def StartsOff (kind : NodeKind) : Forest Site → Prop
  | nil => True
  | node site _ _ => site.node.kind ≠ kind

section Run

variable {α : Type} {forest : α → Forest Site} {root : α → Site} {below : α → Forest Site}
  (kind : NodeKind)

/-- A run of members of one kind does not begin with another kind. -/
theorem startsOff_ofAll_append {other : NodeKind} {f : Forest Site}
    (hforest : ∀ a, forest a = tree (root a) (below a)) (hkind : ∀ a, (root a).node.kind = kind)
    (hne : kind ≠ other) (hf : f.StartsOff other) (list : List α) :
    (ofAll forest list ++ f).StartsOff other := by
  cases list with
  | nil => exact hf
  | cons a list =>
    rw [ofAll_cons, hforest]
    change (root a).node.kind ≠ other
    rw [hkind]
    exact hne

/-- A forest that begins with another kind does not begin as a member of the run. -/
theorem outline_ne_of_startsOff {f g : Forest Site} {a : α}
    (hforest : ∀ a, forest a = tree (root a) (below a)) (hkind : ∀ a, (root a).node.kind = kind)
    (hf : f.StartsOff kind) : f.outline ≠ (forest a ++ g).outline := by
  intro h
  rw [hforest] at h
  cases f with
  | nil => cases h
  | node site _ _ =>
    injection h with hsite
    refine hf ?_
    rw [← hkind a, ← Node.kind_emptied, ← (root a).node.kind_emptied]
    exact congrArg (fun site => site.node.kind) hsite

/-- **Runs.** Let members of one kind stand side by side, each determined by its outline, and behind
them something that does not begin with this kind. Then the outline determines the members, and the
outline of what is behind them. -/
theorem ofAll_append_inj {f g : Forest Site} {list others : List α}
    (hforest : ∀ a, forest a = tree (root a) (below a)) (hkind : ∀ a, (root a).node.kind = kind)
    (hinj : ∀ a ∈ list, ∀ b, (forest a).outline = (forest b).outline → a = b)
    (hf : f.StartsOff kind) (hg : g.StartsOff kind)
    (h : (ofAll forest list ++ f).outline = (ofAll forest others ++ g).outline) :
    list = others ∧ f.outline = g.outline := by
  induction list generalizing others with
  | nil =>
    cases others with
    | nil => exact ⟨rfl, h⟩
    | cons b others =>
      rw [ofAll_cons, append_assoc] at h
      exact absurd h (outline_ne_of_startsOff kind hforest hkind hf)
  | cons a list ih =>
    cases others with
    | nil =>
      rw [ofAll_cons, append_assoc] at h
      exact absurd h.symm (outline_ne_of_startsOff kind hforest hkind hg)
    | cons b others =>
      rw [ofAll_cons, ofAll_cons, append_assoc, append_assoc, hforest, hforest] at h
      -- the first trees agree, and so does what is behind them
      injection h with hsite hbelow hrest
      obtain ⟨hlist, hbehind⟩ := ih (fun c hc => hinj c (List.mem_cons_of_mem a hc)) hrest
      have hab : a = b := by
        refine hinj a List.mem_cons_self b ?_
        rw [hforest, hforest, outline_tree, outline_tree, hsite]
        exact congrArg (tree (root b).emptied) hbelow
      exact ⟨by rw [hab, hlist], hbehind⟩

/-- The same for a run with nothing behind it. -/
theorem ofAll_inj {list others : List α} (hforest : ∀ a, forest a = tree (root a) (below a))
    (hkind : ∀ a, (root a).node.kind = kind)
    (hinj : ∀ a ∈ list, ∀ b, (forest a).outline = (forest b).outline → a = b)
    (h : (ofAll forest list).outline = (ofAll forest others).outline) : list = others := by
  rw [← append_nil (ofAll forest list), ← append_nil (ofAll forest others)] at h
  exact (ofAll_append_inj kind (f := nil) (g := nil) hforest hkind hinj trivial trivial h).1

end Run

end Forest

/-! ### Members -/

/-- The nodes of two trees with the same outline are the same, without what is below them. -/
theorem Forest.of_outline_tree_eq {site other : Site} {below more : Forest Site}
    (h : (tree site below).outline = (tree other more).outline) :
    site.node.emptied = other.node.emptied ∧ below.outline = more.outline := by
  injection h with hsite hbelow
  exact ⟨congrArg Site.node hsite, hbelow⟩

theorem Field.eq_of_outline_eq {owner : DeclUrl} (field other : Field)
    (h : (field.forest owner).outline = (other.forest owner).outline) : field = other :=
  Node.field.inj (Forest.of_outline_tree_eq h).1

theorem EnumConstant.eq_of_outline_eq (constant other : EnumConstant)
    (h : constant.forest.outline = other.forest.outline) : constant = other :=
  Node.constant.inj (Forest.of_outline_tree_eq h).1

theorem Rpc.eq_of_outline_eq (rpc other : Rpc) (h : rpc.forest.outline = other.forest.outline) :
    rpc = other :=
  Node.rpc.inj (Forest.of_outline_tree_eq h).1

/-- A run of fields is determined by its outline. -/
theorem Field.list_eq_of_outline_eq {owner : DeclUrl} {fields others : List Field}
    (h : (Forest.ofAll (Field.forest owner) fields).outline =
      (Forest.ofAll (Field.forest owner) others).outline) : fields = others :=
  Forest.ofAll_inj .field (fun _ => rfl) (fun _ => rfl)
    (fun a _ b => Field.eq_of_outline_eq a b) h

theorem OneOf.eq_of_outline_eq {owner : DeclUrl} (group other : OneOf)
    (h : (group.forest owner).outline = (other.forest owner).outline) : group = other := by
  obtain ⟨hgroup, hbelow⟩ := Forest.of_outline_tree_eq h
  have hfields : group.fields = other.fields := Field.list_eq_of_outline_eq hbelow
  cases group
  cases other
  simp_all [Node.emptied]

theorem Extend.eq_of_outline_eq (block other : Extend)
    (h : block.forest.outline = other.forest.outline) : block = other := by
  obtain ⟨hblock, hbelow⟩ := Forest.of_outline_tree_eq h
  have htarget : block.target = other.target := by
    injection hblock with hemptied
    exact (Extend.mk.inj hemptied).1
  rw [← htarget] at hbelow
  have hfields : block.fields = other.fields := Field.list_eq_of_outline_eq hbelow
  cases block
  cases other
  simp_all [Node.emptied]

theorem Service.eq_of_outline_eq (service other : Service)
    (h : service.forest.outline = other.forest.outline) : service = other := by
  obtain ⟨hservice, hbelow⟩ := Forest.of_outline_tree_eq h
  have hrpcs : service.rpcs = other.rpcs :=
    Forest.ofAll_inj .rpc (fun _ => rfl) (fun _ => rfl)
      (fun a _ b => Rpc.eq_of_outline_eq a b) hbelow
  cases service
  cases other
  simp_all [Node.emptied]

/-! ### Types -/

/-- The members of a type can be read off a forest, if its kind is known and no members of a type
follow. -/
theorem TypeBody.eq_of_outline_append_eq {owner : DeclUrl} {body other : TypeBody}
    {f g : Forest Site} (hempty : body.emptied = other.emptied)
    (hf : ∀ kind, kind = .field ∨ kind = .oneOf ∨ kind = .constant → f.StartsOff kind)
    (hg : ∀ kind, kind = .field ∨ kind = .oneOf ∨ kind = .constant → g.StartsOff kind)
    (h : (body.forest owner ++ f).outline = (other.forest owner ++ g).outline) :
    body = other ∧ f.outline = g.outline := by
  cases body with
  | message fields oneOfs =>
    cases other with
    | message others groups =>
      simp only [forest, Forest.append_assoc] at h
      have hstart (list : List OneOf) (f : Forest Site) (hf : f.StartsOff .field) :
          (Forest.ofAll (OneOf.forest owner) list ++ f).StartsOff .field :=
        Forest.startsOff_ofAll_append .oneOf (fun _ => rfl) (fun _ => rfl) (by decide) hf list
      obtain ⟨hfields, h⟩ := Forest.ofAll_append_inj .field (fun _ => rfl)
        (fun _ => rfl) (fun a _ b => Field.eq_of_outline_eq a b)
        (hstart oneOfs f (hf _ (.inl rfl))) (hstart groups g (hg _ (.inl rfl))) h
      obtain ⟨honeOfs, h⟩ := Forest.ofAll_append_inj .oneOf (fun _ => rfl)
        (fun _ => rfl) (fun a _ b => OneOf.eq_of_outline_eq a b)
        (hf _ (.inr (.inl rfl))) (hg _ (.inr (.inl rfl))) h
      exact ⟨by rw [hfields, honeOfs], h⟩
    | enumeration _ => cases hempty
    | enclosing => cases hempty
  | enumeration constants =>
    cases other with
    | message _ _ => cases hempty
    | enumeration others =>
      obtain ⟨hconstants, h⟩ := Forest.ofAll_append_inj .constant (fun _ => rfl)
        (fun _ => rfl) (fun a _ b => EnumConstant.eq_of_outline_eq a b)
        (hf _ (.inr (.inr rfl))) (hg _ (.inr (.inr rfl))) h
      exact ⟨by rw [hconstants], h⟩
    | enclosing => cases hempty
  | enclosing =>
    cases other with
    | message _ _ => cases hempty
    | enumeration _ => cases hempty
    | enclosing => exact ⟨rfl, h⟩

/-- A forest that begins with no member of a type, and with no extend block. -/
theorem TypeDecl.startsOff_forestOfAll {kind : NodeKind} (hkind : NodeKind.type ≠ kind)
    (types : List TypeDecl) : (TypeDecl.forestOfAll types).StartsOff kind := by
  rw [TypeDecl.forestOfAll_eq, ← Forest.append_nil (Forest.ofAll TypeDecl.forest types)]
  exact Forest.startsOff_ofAll_append .type (f := .nil) TypeDecl.forest_eq (fun _ => rfl) hkind
    trivial types

/-- Extend blocks and types behind them can be read off a forest. -/
theorem Extend.list_eq_of_outline_append_eq {blocks others : List Extend}
    {types more : List TypeDecl}
    (h : (Forest.ofAll Extend.forest blocks ++ TypeDecl.forestOfAll types).outline =
      (Forest.ofAll Extend.forest others ++ TypeDecl.forestOfAll more).outline) :
    blocks = others ∧
      (TypeDecl.forestOfAll types).outline = (TypeDecl.forestOfAll more).outline :=
  Forest.ofAll_append_inj .extend (fun _ => rfl) (fun _ => rfl)
    (fun a _ b => Extend.eq_of_outline_eq a b) (TypeDecl.startsOff_forestOfAll (by decide) types)
    (TypeDecl.startsOff_forestOfAll (by decide) more) h

/-- Behind the members of a type its extend blocks and the types nested in it begin with none. -/
theorem Extend.startsOff_ofAll_append {kind : NodeKind}
    (hkind : kind = .field ∨ kind = .oneOf ∨ kind = .constant) (blocks : List Extend)
    (types : List TypeDecl) :
    (Forest.ofAll Extend.forest blocks ++ TypeDecl.forestOfAll types).StartsOff kind := by
  refine Forest.startsOff_ofAll_append .extend (fun _ => rfl) (fun _ => rfl) ?_
    (TypeDecl.startsOff_forestOfAll ?_ types) blocks
  all_goals rcases hkind with rfl | rfl | rfl <;> decide

mutual

theorem TypeDecl.eq_of_outline_eq :
    ∀ type other : TypeDecl, type.forest.outline = other.forest.outline → type = other
  | ⟨head, nested⟩, ⟨other, more⟩, h => by
    rw [TypeDecl.forest, TypeDecl.forest] at h
    obtain ⟨htype, hbelow⟩ := Forest.of_outline_tree_eq h
    have hhead : { head with extensions := [], body := head.body.emptied } =
        { other with extensions := [], body := other.body.emptied } :=
      (TypeDecl.mk.inj (Node.type.inj htype)).1
    obtain ⟨hname, hdocumentation, hurl, hoptions, hlocation, -, hempty⟩ := TypeHead.mk.inj hhead
    -- below the type its members come first, then its extend blocks and the types nested in it
    rw [← hurl] at hbelow
    obtain ⟨hbody, hbelow⟩ := TypeBody.eq_of_outline_append_eq hempty
      (fun _ hkind => Extend.startsOff_ofAll_append hkind head.extensions nested)
      (fun _ hkind => Extend.startsOff_ofAll_append hkind other.extensions more) hbelow
    obtain ⟨hextensions, hbelow⟩ := Extend.list_eq_of_outline_append_eq hbelow
    have hnested : nested = more := TypeDecl.list_eq_of_outline_eq nested more hbelow
    cases head
    cases other
    simp_all

theorem TypeDecl.list_eq_of_outline_eq :
    ∀ types others : List TypeDecl,
      (TypeDecl.forestOfAll types).outline = (TypeDecl.forestOfAll others).outline → types = others
  | [], [], _ => rfl
  | [], other :: others, h => by
    rw [TypeDecl.forestOfAll, TypeDecl.forestOfAll, TypeDecl.forest_eq] at h
    cases h
  | type :: types, [], h => by
    rw [TypeDecl.forestOfAll, TypeDecl.forestOfAll, TypeDecl.forest_eq] at h
    cases h
  | type :: types, other :: others, h => by
    rw [TypeDecl.forestOfAll, TypeDecl.forestOfAll, TypeDecl.forest_eq, TypeDecl.forest_eq] at h
    injection h with hsite hbelow hrest
    have htype : type = other := by
      refine TypeDecl.eq_of_outline_eq type other ?_
      rw [TypeDecl.forest_eq, TypeDecl.forest_eq, Forest.outline_tree, Forest.outline_tree, hsite]
      exact congrArg (Forest.tree (Site.emptied _)) hbelow
    rw [htype, TypeDecl.list_eq_of_outline_eq types others hrest]

end

/-! ### Files -/

theorem SchemaFile.eq_of_outline_eq (file other : SchemaFile)
    (h : file.forest.outline = other.forest.outline) : file = other := by
  obtain ⟨hfile, hbelow⟩ := Forest.of_outline_tree_eq h
  have hstart (blocks : List Extend) (types : List TypeDecl) :
      (Forest.ofAll Extend.forest blocks ++ TypeDecl.forestOfAll types).StartsOff .service :=
    Forest.startsOff_ofAll_append .extend (fun _ => rfl) (fun _ => rfl) (by decide)
      (TypeDecl.startsOff_forestOfAll (by decide) types) blocks
  obtain ⟨hservices, hbelow⟩ := Forest.ofAll_append_inj .service (fun _ => rfl) (fun _ => rfl)
    (fun a _ b => Service.eq_of_outline_eq a b) (hstart file.extensions file.types)
    (hstart other.extensions other.types) hbelow
  obtain ⟨hextensions, hbelow⟩ := Extend.list_eq_of_outline_append_eq hbelow
  have htypes : file.types = other.types := TypeDecl.list_eq_of_outline_eq _ _ hbelow
  cases file
  cases other
  simp_all [Node.emptied]

/-- **Determination.** Schemas with the same outline are the same.

**Proof sketch.** Below each node the members of one kind stand side by side. The kinds of the nodes
tell where a run of members ends, so the lists of members are read off the forest one after the
other, and each member by itself. -/
theorem Resolver.eq_of_outline_eq {resolver other : Resolver}
    (h : resolver.forest.outline = other.forest.outline) : resolver = other := by
  have hfiles : resolver.files = other.files :=
    Forest.ofAll_inj .file (fun _ => rfl) (fun _ => rfl)
      (fun a _ b => SchemaFile.eq_of_outline_eq a b) h
  cases resolver
  cases other
  exact congrArg Resolver.mk hfiles

end SchemaForge
