import SchemaForge.Proofs.Resolver.Cutting
set_option autoImplicit false

/-!
# What a filter cuts

A filter rebuilds each part of a schema without the nodes that its keeper rejects. Seen as forests,
it cuts out of a part what judging the forest of this part cuts, it asks the keeper the same
questions, and it notes the urls of exactly the fields that are absent.

## Main definitions

* `SchemaForge.Site.Names` — a url under which the field at a place is known.
* `SchemaForge.Cuts` — what work of a filter does to the forest of a part of a schema.

## Main results

* `SchemaForge.Cuts.bind`, `SchemaForge.cuts_decide`, `SchemaForge.cuts_each` — the rules for the
  work of a filter.
* `SchemaForge.cuts_cut` — the work on all files.
-/

namespace SchemaForge

open Keeper

/-- The field at a place is known under a url: the owner of the url is the type that the field is
looked up with, and the member is its name or its qualified name. -/
def Site.Names (site : Site) (url : MemberUrl) : Prop :=
  ∃ field, site.node = .field field ∧ site.owner? = some url.owner ∧
    (url.member = field.name ∨ url.member = field.qualifiedName)

/-! ### Urls of a forest -/

namespace Forest

/-- A field of the forest is known under a url. -/
def Names (f : Forest Site) (url : MemberUrl) : Prop := ∃ site ∈ f.labels, site.Names url

@[simp] theorem not_names_nil (url : MemberUrl) : ¬ (nil : Forest Site).Names url := by
  rintro ⟨site, hsite, -⟩
  cases hsite

@[simp] theorem names_append (f g : Forest Site) (url : MemberUrl) :
    (f ++ g).Names url ↔ f.Names url ∨ g.Names url := by
  simp only [Names, labels_append, List.mem_append, or_and_right, exists_or]

theorem names_tree (site : Site) (below : Forest Site) (url : MemberUrl) :
    (tree site below).Names url ↔ site.Names url ∨ below.Names url := by
  simp [Names, tree, labels]

/-- A root that is no field adds nothing. -/
theorem names_tree_of_none {site : Site} (h : site.owner? = none) (below : Forest Site)
    (url : MemberUrl) : (tree site below).Names url ↔ below.Names url := by
  rw [names_tree, or_iff_right]
  rintro ⟨field, -, howner, -⟩
  rw [h] at howner
  cases howner

/-- The members of a list name what is noted for them. -/
theorem names_ofAll {α : Type} {forest : α → Forest Site} {lost : α → List MemberUrl}
    (h : ∀ a url, url ∈ lost a ↔ (forest a).Names url) (list : List α) (url : MemberUrl) :
    url ∈ list.flatMap lost ↔ (ofAll forest list).Names url := by
  induction list with
  | nil => simp
  | cons a list ih => simp [h, ih]

/-- Members that have no fields name nothing. -/
theorem not_names_ofAll {α : Type} {forest : α → Forest Site} {url : MemberUrl}
    (h : ∀ a, ¬ (forest a).Names url) (list : List α) : ¬ (ofAll forest list).Names url := by
  induction list with
  | nil => exact not_names_nil url
  | cons a list ih => simp [h, ih]

end Forest

theorem Field.mem_memberUrls (owner : DeclUrl) (field : Field) (url : MemberUrl) :
    url ∈ field.memberUrls owner ↔ (field.forest owner).Names url := by
  obtain ⟨urlOwner, member⟩ := url
  have hnames : (field.forest owner).Names ⟨urlOwner, member⟩ ↔
      owner = urlOwner ∧ (member = field.name ∨ member = field.qualifiedName) := by
    simp [forest, Forest.names_tree, Site.Names]
  rw [hnames]
  unfold memberUrls
  split
  · rename_i hsame
    simp [hsame, eq_comm]
  · simp [eq_comm, and_or_left]

theorem mem_lostFields (owner : DeclUrl) (fields : List Field) (url : MemberUrl) :
    url ∈ lostFields owner fields ↔ (Forest.ofAll (Field.forest owner) fields).Names url :=
  Forest.names_ofAll (Field.mem_memberUrls owner) fields url

theorem OneOf.mem_lostFields (owner : DeclUrl) (group : OneOf) (url : MemberUrl) :
    url ∈ lostFields owner group.fields ↔ (group.forest owner).Names url := by
  rw [forest, Forest.names_tree_of_none rfl]
  exact SchemaForge.mem_lostFields owner group.fields url

theorem Extend.mem_lostMembers (block : Extend) (url : MemberUrl) :
    url ∈ block.lostMembers ↔ block.forest.Names url := by
  rw [forest, Forest.names_tree_of_none rfl]
  exact mem_lostFields block.target block.fields url

theorem Rpc.not_names_forest (rpc : Rpc) (url : MemberUrl) : ¬ rpc.forest.Names url := by
  rw [forest, Forest.names_tree_of_none rfl]
  exact Forest.not_names_nil url

theorem Service.not_names_forest (service : Service) (url : MemberUrl) :
    ¬ service.forest.Names url := by
  rw [forest, Forest.names_tree_of_none rfl]
  exact Forest.not_names_ofAll (fun rpc => rpc.not_names_forest url) service.rpcs

theorem EnumConstant.not_names_forest (constant : EnumConstant) (url : MemberUrl) :
    ¬ constant.forest.Names url := by
  rw [forest, Forest.names_tree_of_none rfl]
  exact Forest.not_names_nil url

theorem TypeBody.mem_lostFields (owner : DeclUrl) (body : TypeBody) (url : MemberUrl) :
    url ∈ lostFields owner body.allFields ↔ (body.forest owner).Names url := by
  cases body with
  | message fields oneOfs =>
    rw [forest, Forest.names_append, ← SchemaForge.mem_lostFields,
      ← Forest.names_ofAll (OneOf.mem_lostFields owner)]
    simp [lostFields, allFields, List.flatMap_assoc]
  | enumeration constants =>
    refine iff_of_false List.not_mem_nil ?_
    exact Forest.not_names_ofAll (fun constant => constant.not_names_forest url) constants
  | enclosing => exact iff_of_false List.not_mem_nil (Forest.not_names_nil url)

mutual

theorem TypeDecl.mem_lostMembers :
    ∀ (type : TypeDecl) (url : MemberUrl), url ∈ type.lostMembers ↔ type.forest.Names url
  | ⟨head, nested⟩, url => by
    rw [TypeDecl.lostMembers, TypeDecl.forest, Forest.names_tree_of_none rfl, Forest.names_append,
      Forest.names_append, List.mem_append, List.mem_append, or_assoc,
      ← TypeDecl.mem_allLostMembers nested, ← Forest.names_ofAll Extend.mem_lostMembers,
      ← TypeBody.mem_lostFields]
    rfl

theorem TypeDecl.mem_allLostMembers :
    ∀ (types : List TypeDecl) (url : MemberUrl),
      url ∈ TypeDecl.allLostMembers types ↔ (TypeDecl.forestOfAll types).Names url
  | [], url => iff_of_false List.not_mem_nil (Forest.not_names_nil url)
  | type :: types, url => by
    rw [TypeDecl.allLostMembers, TypeDecl.forestOfAll, List.mem_append, Forest.names_append,
      TypeDecl.mem_lostMembers type, TypeDecl.mem_allLostMembers types]

end

/-- **What is noted.** With a file the urls of all its fields are noted, and nothing else. -/
theorem SchemaFile.mem_lostMembers (file : SchemaFile) (url : MemberUrl) :
    url ∈ file.lostMembers ↔ file.forest.Names url := by
  rw [lostMembers, forest, Forest.names_tree_of_none rfl, Forest.names_append,
    Forest.names_append, List.mem_append, ← TypeDecl.mem_allLostMembers,
    ← Forest.names_ofAll Extend.mem_lostMembers, or_comm]
  have hservices : ¬ (Forest.ofAll Service.forest file.services).Names url :=
    Forest.not_names_ofAll (fun service => service.not_names_forest url) file.services
  exact (or_iff_right hservices).symm

variable {σ α β γ : Type} {keeper : Keeper σ}

/-! ### The rules -/

/-- Work of a filter on a part of a schema with the forest `before`, behind parts with the forest
`earlier` that have been worked on, leaves parts with the forest `after`: the keeper judges the
forest, the earlier forest and the one that remains are left, and the urls of what is absent are
noted. -/
structure Cuts (keeper : Keeper σ) (earlier : Forest Site) (work : StateM (Filtering σ) β)
    (before : Forest Site) (after : β → Forest Site) : Prop where
  memory : ∀ state, (work.run state).2.memory = (keeper.judge before state.memory).2
  outline : ∀ state, (after (work.run state).1).outline =
    earlier.outline ++ (keeper.judge before state.memory).1.remains.outline
  removed : ∀ state url, url ∈ (work.run state).2.removed ↔
    url ∈ state.removed ∨ ∃ site ∈ (keeper.judge before state.memory).1.absent, site.Names url

namespace Cuts

variable {earlier : Forest Site}

/-- Nothing is cut where nothing is done. -/
theorem pure {b : β} {after : β → Forest Site} (h : (after b).outline = earlier.outline) :
    Cuts keeper earlier (pure b) .nil after where
  memory _ := rfl
  outline _ := h.trans (Forest.append_nil _).symm
  removed state url := by
    constructor
    · exact .inl
    · rintro (hurl | ⟨site, hsite, -⟩)
      · exact hurl
      · cases hsite

/-- Work on one part, and then on those behind it. -/
theorem bind {work : StateM (Filtering σ) β} {next : β → StateM (Filtering σ) γ}
    {part later : Forest Site} {left : β → Forest Site} {after : γ → Forest Site}
    (hwork : Cuts keeper .nil work part left)
    (hnext : ∀ b, Cuts keeper (earlier ++ left b) (next b) later after) :
    Cuts keeper earlier (work >>= next) (part ++ later) after := by
  have hrun : ∀ state, (work >>= next).run state =
      (next (work.run state).1).run (work.run state).2 := fun _ => rfl
  refine ⟨fun state => ?_, fun state => ?_, fun state url => ?_⟩
  · rw [hrun, judge_append, (hnext _).memory, hwork.memory]
  · rw [hrun, judge_append, (hnext _).outline, hwork.memory, Forest.outline_append,
      hwork.outline]
    simp only [Cutting.remains_append, Forest.outline_append, Forest.append_assoc]
    rfl
  · rw [hrun, judge_append, (hnext _).removed, hwork.memory, hwork.removed, or_assoc]
    simp only [Cutting.absent_append, List.mem_append, or_and_right, exists_or]

/-- Work on the last part. -/
theorem last {work : StateM (Filtering σ) β} {f : β → γ} {part : Forest Site}
    {left : β → Forest Site} {after : γ → Forest Site} (hwork : Cuts keeper .nil work part left)
    (h : ∀ b, (after (f b)).outline = (earlier ++ left b).outline) :
    Cuts keeper earlier (work >>= fun b => Pure.pure (f b)) part after := by
  rw [← Forest.append_nil part]
  exact .bind hwork fun b => .pure (h b)

end Cuts

section Decide

variable {site : Site} {below : Forest Site} {lost : List MemberUrl}
  {cut : StateM (Filtering σ) β} {state : Filtering σ} {next : σ}

/-- A node that is accepted is worked on. -/
theorem run_decide_of_accepted (h : (keeper.askAt site).run state.memory = (true, next)) :
    (keeper.decide site.node lost cut).run state =
      (some (cut.run ⟨next, state.removed⟩).1, (cut.run ⟨next, state.removed⟩).2) := by
  have hask : (keeper.ask site.node).run state =
      (((keeper.askAt site).run state.memory).1,
        ⟨((keeper.askAt site).run state.memory).2, state.removed⟩) := rfl
  rw [Keeper.decide, StateT.run_bind, hask, h]
  rfl

/-- Of a node that is rejected the urls are noted. -/
theorem run_decide_of_rejected (h : (keeper.askAt site).run state.memory = (false, next)) :
    (keeper.decide site.node lost cut).run state = (none, ⟨next, state.removed ++ lost⟩) := by
  have hask : (keeper.ask site.node).run state =
      (((keeper.askAt site).run state.memory).1,
        ⟨((keeper.askAt site).run state.memory).2, state.removed⟩) := rfl
  rw [Keeper.decide, StateT.run_bind, hask, h]
  rfl

/-- **Decisions.** A node is kept with what is kept below it, or it is cut and its urls are noted.
The node that is kept differs from the one that was asked about only in what is below it.

**Proof sketch.** By the answer of the keeper. If it accepts the node, the questions below it are
those of the work on it. Otherwise everything below is absent with the node. -/
theorem cuts_decide {forest left : β → Forest Site} {root : β → Site}
    (hforest : ∀ b, forest b = .tree (root b) (left b))
    (hlost : ∀ url, url ∈ lost ↔ (Forest.tree site below).Names url)
    (hcut : Cuts keeper .nil cut below left)
    (hroot : ∀ state, (root (cut.run state).1).emptied = site.emptied) :
    Cuts keeper .nil (keeper.decide site.node lost cut) (.tree site below)
      fun kept => .ofAll forest kept.toList := by
  refine ⟨fun state => ?_, fun state => ?_, fun state url => ?_⟩
  all_goals rcases hask : (keeper.askAt site).run state.memory with ⟨_ | _, next⟩
  · rw [run_decide_of_rejected hask, judge_tree_of_rejected hask]
  · rw [run_decide_of_accepted hask, judge_tree_of_accepted hask, hcut.memory]
  · rw [run_decide_of_rejected hask, judge_tree_of_rejected hask]
    rfl
  · rw [run_decide_of_accepted hask, judge_tree_of_accepted hask]
    change (forest _ ++ Forest.nil).outline = _
    rw [hforest, Forest.append_nil, Forest.outline_tree, hroot, hcut.outline]
    rfl
  · rw [run_decide_of_rejected hask, judge_tree_of_rejected hask, List.mem_append, hlost]
    simp only [Cutting.absent, Forest.Names, Forest.tree, Forest.labels]
  · rw [run_decide_of_accepted hask, judge_tree_of_accepted hask, hcut.removed]
    simp only [Cutting.absent, List.append_nil]

end Decide

/-- Of a list is kept what is kept of its members. -/
theorem cuts_each {filterOne : α → StateM (Filtering σ) (Option α)} {forest : α → Forest Site}
    (h : ∀ a, Cuts keeper .nil (filterOne a) (forest a) fun kept => .ofAll forest kept.toList)
    (list : List α) :
    Cuts keeper .nil (each filterOne list) (.ofAll forest list) (.ofAll forest) := by
  induction list with
  | nil => exact .pure rfl
  | cons a list ih =>
    refine .bind (h a) fun kept => .last ih fun keptRest => ?_
    rw [Forest.ofAll_append]
    rfl

/-! ### The work of a filter -/

theorem cuts_filterFields (owner : DeclUrl) (fields : List Field) :
    Cuts keeper .nil (keeper.filterFields owner fields) (.ofAll (Field.forest owner) fields)
      (.ofAll (Field.forest owner)) := by
  refine cuts_each (fun field => ?_) fields
  exact cuts_decide (fun _ => rfl) (field.mem_memberUrls owner) (.pure rfl) fun _ => rfl

theorem cuts_filterOneOf (owner : DeclUrl) (group : OneOf) :
    Cuts keeper .nil (keeper.filterOneOf owner group) (group.forest owner)
      fun kept => .ofAll (OneOf.forest owner) kept.toList := by
  refine cuts_decide (fun _ => rfl) (group.mem_lostFields owner) ?_ fun _ => rfl
  exact .last (cuts_filterFields owner group.fields) fun _ => rfl

theorem cuts_filterExtend (block : Extend) :
    Cuts keeper .nil (keeper.filterExtend block) block.forest
      fun kept => .ofAll Extend.forest kept.toList := by
  refine cuts_decide (fun _ => rfl) block.mem_lostMembers ?_ fun _ => rfl
  exact .last (cuts_filterFields block.target block.fields) fun _ => rfl

theorem cuts_filterConstant (constant : EnumConstant) :
    Cuts keeper .nil (keeper.filterConstant constant) constant.forest
      fun kept => .ofAll EnumConstant.forest kept.toList := by
  have hlost : ∀ url, url ∈ [] ↔ constant.forest.Names url :=
    fun url => iff_of_false List.not_mem_nil (constant.not_names_forest url)
  exact cuts_decide (fun _ => rfl) hlost (.pure rfl) fun _ => rfl

theorem cuts_filterRpc (rpc : Rpc) :
    Cuts keeper .nil (keeper.filterRpc rpc) rpc.forest
      fun kept => .ofAll Rpc.forest kept.toList := by
  have hlost : ∀ url, url ∈ [] ↔ rpc.forest.Names url :=
    fun url => iff_of_false List.not_mem_nil (rpc.not_names_forest url)
  exact cuts_decide (fun _ => rfl) hlost (.pure rfl) fun _ => rfl

theorem cuts_filterService (service : Service) :
    Cuts keeper .nil (keeper.filterService service) service.forest
      fun kept => .ofAll Service.forest kept.toList := by
  have hlost : ∀ url, url ∈ [] ↔ service.forest.Names url :=
    fun url => iff_of_false List.not_mem_nil (service.not_names_forest url)
  refine cuts_decide (fun _ => rfl) hlost ?_ fun _ => rfl
  exact .last (cuts_each cuts_filterRpc service.rpcs) fun _ => rfl

theorem cuts_filterBody (owner : DeclUrl) (body : TypeBody) :
    Cuts keeper .nil (keeper.filterBody owner body) (body.forest owner)
      (TypeBody.forest owner) := by
  cases body with
  | message fields oneOfs =>
    refine .bind (cuts_filterFields owner fields) fun _ => ?_
    exact .last (cuts_each (cuts_filterOneOf owner) oneOfs) fun _ => rfl
  | enumeration constants =>
    exact .last (cuts_each cuts_filterConstant constants) fun _ => rfl
  | enclosing => exact .pure rfl

/-- What is kept of the members of a type are members of the same kind of types. -/
theorem emptied_filterBody (owner : DeclUrl) (body : TypeBody) (state : Filtering σ) :
    ((keeper.filterBody owner body).run state).1.emptied = body.emptied := by
  cases body <;> rfl

mutual

/-- What is kept of a type. -/
theorem cuts_filterType :
    ∀ type : TypeDecl, Cuts keeper .nil (keeper.filterType type) type.forest
      fun kept => .ofAll TypeDecl.forest kept.toList
  | ⟨head, nested⟩ => by
    rw [filterType]
    refine cuts_decide TypeDecl.forest_eq (TypeDecl.mem_lostMembers ⟨head, nested⟩) ?_
      fun state => ?_
    · -- below the type its members come first, then its extend blocks and the types nested in it
      refine .bind (cuts_filterBody head.url head.body) fun body => ?_
      refine .bind (cuts_each cuts_filterExtend head.extensions) fun extensions => ?_
      refine .last (cuts_filterTypes nested) fun types => ?_
      simp only [TypeDecl.forestBelow, Forest.append_assoc, Forest.nil_append]
    · -- what is kept is a type of the same kind, which is not known before the work is done
      have hbody := @emptied_filterBody σ keeper head.url head.body state
      exact congrArg
        (fun body => Site.mk (.type ⟨{ head with extensions := [], body }, []⟩) none) hbody

/-- What is kept of a forest of types. -/
theorem cuts_filterTypes :
    ∀ types : List TypeDecl, Cuts keeper .nil (keeper.filterTypes types)
      (TypeDecl.forestOfAll types) TypeDecl.forestOfAll
  | [] => .pure rfl
  | type :: types => by
    rw [filterTypes, TypeDecl.forestOfAll]
    refine .bind (cuts_filterType type) fun kept => .last (cuts_filterTypes types) fun others => ?_
    simp only [TypeDecl.forestOfAll_eq, Forest.ofAll_append]
    rfl

end

/-- What is kept of a file. -/
theorem cuts_filterFile (file : SchemaFile) :
    Cuts keeper .nil (keeper.filterFile file) file.forest
      fun kept => .ofAll SchemaFile.forest kept.toList := by
  refine cuts_decide (fun _ => rfl) file.mem_lostMembers ?_ fun _ => rfl
  refine .bind (cuts_each cuts_filterService file.services) fun services => ?_
  refine .bind (cuts_each cuts_filterExtend file.extensions) fun extensions => ?_
  refine .last (cuts_filterTypes file.types) fun types => ?_
  simp only [Forest.append_assoc, Forest.nil_append]

/-- **What a filter cuts.** What is kept of all files before any options are stripped.

**Proof sketch.** The work on a part is put together from decisions about its nodes and from the
work on lists of parts, in the order of the forest. -/
theorem cuts_cut (resolver : Resolver) :
    Cuts keeper .nil (each keeper.filterFile resolver.files) resolver.forest
      (.ofAll SchemaFile.forest) :=
  cuts_each cuts_filterFile resolver.files

end SchemaForge
