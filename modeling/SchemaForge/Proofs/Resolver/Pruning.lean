import SchemaForge.Proofs.Resolver.Content
import SchemaForge.Resolver.Filter
set_option autoImplicit false

/-!
# What a filter keeps

A filter cuts nodes out of a schema and notes the fields that disappear. The nodes that are left
carry the options they had, and each url under which a field was looked up still has a field, or
is noted.

## Main definitions

* `SchemaForge.Prunes` — what work of a filter does to the content of a part of a schema.

## Main results

* `SchemaForge.Prunes.bind`, `SchemaForge.prunes_decide`, `SchemaForge.prunes_each` — the rules for
  the work of a filter.
* `SchemaForge.prunes_filterFile` — the work on a file.
-/

namespace SchemaForge

open Keeper

variable {σ α β γ : Type}

/-! ### The rules -/

/-- Work of a filter on a part of a schema with the content `before` leaves a part with the content
`after`: no options lists come to it, no noted url is forgotten, and urls that go are noted. -/
structure Prunes (work : StateM (Filtering σ) β) (before : Content) (after : β → Content) :
    Prop where
  options : ∀ state, (after (work.run state).1).options ⊆ before.options
  removed : ∀ state, state.removed ⊆ (work.run state).2.removed
  keys : ∀ state, ∀ key ∈ before.keys,
    key ∈ (after (work.run state).1).keys ∨ key ∈ (work.run state).2.removed

namespace Prunes

/-- Nothing goes where nothing is done. -/
theorem pure {b : β} {before : Content} {after : β → Content} (h : after b = before) :
    Prunes (pure b : StateM (Filtering σ) β) before after := by
  subst h
  exact ⟨fun _ => List.Subset.refl _, fun _ => List.Subset.refl _, fun _ _ hkey => .inl hkey⟩

/-- Work on one part, with parts before it that have been worked on and parts behind it that have
not. -/
theorem bind {work : StateM (Filtering σ) β} {next : β → StateM (Filtering σ) γ}
    {earlier part later : Content} {left : β → Content} {after : γ → Content}
    (hwork : Prunes work part left)
    (hnext : ∀ b, Prunes (next b) (earlier ++ (left b ++ later)) after) :
    Prunes (work >>= next) (earlier ++ (part ++ later)) after where
  options := by
    intro state options hoptions
    have hmem := (hnext (work.run state).1).options (work.run state).2 hoptions
    simp only [Content.options_append, List.mem_append] at hmem ⊢
    rcases hmem with hearlier | hleft | hlater
    · exact .inl hearlier
    · exact .inr (.inl (hwork.options state hleft))
    · exact .inr (.inr hlater)
  removed := fun state =>
    List.Subset.trans (hwork.removed state)
      ((hnext (work.run state).1).removed (work.run state).2)
  keys := by
    intro state key hkey
    have hlast := (hnext (work.run state).1).keys (work.run state).2 key
    simp only [Content.keys_append, List.mem_append] at hkey hlast
    rcases hkey with hearlier | hpart | hlater
    · exact hlast (.inl hearlier)
    · rcases hwork.keys state key hpart with hleft | hnoted
      · exact hlast (.inr (.inl hleft))
      · exact .inr ((hnext (work.run state).1).removed (work.run state).2 hnoted)
    · exact hlast (.inr (.inr hlater))

/-- Work on the first part. -/
theorem first {work : StateM (Filtering σ) β} {next : β → StateM (Filtering σ) γ}
    {part later : Content} {left : β → Content} {after : γ → Content}
    (hwork : Prunes work part left) (hnext : ∀ b, Prunes (next b) (left b ++ later) after) :
    Prunes (work >>= next) (part ++ later) after := by
  rw [← Content.empty_append (part ++ later)]
  exact .bind hwork hnext

/-- Work on the last part. -/
theorem last {work : StateM (Filtering σ) β} {f : β → γ} {earlier part : Content}
    {left : β → Content} {after : γ → Content} (hwork : Prunes work part left)
    (h : ∀ b, after (f b) = earlier ++ left b) :
    Prunes (work >>= fun b => Pure.pure (f b)) (earlier ++ part) after := by
  rw [← Content.append_empty part]
  refine .bind hwork fun b => .pure ?_
  rw [h, Content.append_empty]

/-- Work on the only part. -/
theorem map {work : StateM (Filtering σ) β} {f : β → γ} {part : Content} {left : β → Content}
    {after : γ → Content} (hwork : Prunes work part left) (h : ∀ b, after (f b) = left b) :
    Prunes (work >>= fun b => Pure.pure (f b)) part after := by
  rw [← Content.empty_append part]
  exact .last hwork h

end Prunes

variable {keeper : Keeper σ}

/-- A node is kept with what is kept of it, or it goes and its urls are noted. -/
theorem prunes_decide {node : Node} {lost : List MemberUrl} {cut : StateM (Filtering σ) β}
    {before : Content} {after : β → Content} (hlost : before.keys ⊆ lost)
    (hcut : Prunes cut before after) :
    Prunes (keeper.decide node lost cut) before fun kept => .ofAll after kept.toList := by
  have hrun : ∀ state, (keeper.decide node lost cut).run state =
      if ((keeper.ask node).run state).1 then
        (some (cut.run ((keeper.ask node).run state).2).1,
          (cut.run ((keeper.ask node).run state).2).2)
      else
        (none, { ((keeper.ask node).run state).2 with
          removed := state.removed ++ lost }) := by
    intro state
    change (if ((keeper.ask node).run state).1 then _ else _ : StateM (Filtering σ) _).run _ = _
    split <;> rfl
  constructor
  · intro state
    rw [hrun]
    split
    · simpa using hcut.options _
    · exact List.nil_subset _
  · intro state
    rw [hrun]
    split
    · exact hcut.removed ((keeper.ask node).run state).2
    · exact List.subset_append_left _ _
  · intro state key hkey
    rw [hrun]
    split
    · simpa using hcut.keys _ key hkey
    · exact .inr (List.mem_append_right _ (hlost hkey))

/-- Of a list is kept what is kept of its members. -/
theorem prunes_each {filterOne : α → StateM (Filtering σ) (Option α)} {content : α → Content}
    (h : ∀ a, Prunes (filterOne a) (content a) fun kept => .ofAll content kept.toList)
    (list : List α) : Prunes (each filterOne list) (.ofAll content list) (.ofAll content) := by
  induction list with
  | nil => exact .pure rfl
  | cons a list ih =>
    refine .first (h a) fun kept => .last ih fun keptRest => ?_
    exact Content.ofAll_append content kept.toList keptRest

/-! ### What disappears is noted -/

/-- A field is noted under its plain url and under its qualified one. -/
theorem plainKey_mem_memberUrls (owner : DeclUrl) (field : Field) :
    plainKey owner field ∈ field.memberUrls owner := by
  unfold Field.memberUrls
  split
  · exact List.mem_cons_self
  · exact List.mem_cons_self

theorem qualifiedKey_mem_memberUrls (owner : DeclUrl) (field : Field) :
    qualifiedKey owner field ∈ field.memberUrls owner := by
  unfold Field.memberUrls qualifiedKey
  split
  · rename_i hsame
    rw [hsame]
    exact List.mem_cons_self
  · exact List.mem_cons_of_mem _ List.mem_cons_self

/-- Fields are noted under the urls under which they are looked up. -/
theorem keys_fields_subset {owner : DeclUrl} {key : Field → MemberUrl}
    (hkey : ∀ field : Field, key field ∈ field.memberUrls owner) (fields : List Field) :
    (Content.ofAll (Field.content key) fields).keys ⊆ lostFields owner fields := by
  intro url hurl
  obtain ⟨field, hfield, hmem⟩ := List.mem_flatMap.1 hurl
  obtain rfl := List.mem_singleton.1 hmem
  exact List.mem_flatMap.2 ⟨field, hfield, hkey field⟩

theorem OneOf.keys_content_subset (owner : DeclUrl) (group : OneOf) :
    (group.content owner).keys ⊆ lostFields owner group.fields :=
  keys_fields_subset (plainKey_mem_memberUrls owner) group.fields

theorem Extend.keys_content_subset (block : Extend) :
    block.content.keys ⊆ block.lostMembers :=
  keys_fields_subset (qualifiedKey_mem_memberUrls block.target) block.fields

theorem keys_extends_subset (blocks : List Extend) :
    (Content.ofAll Extend.content blocks).keys ⊆ blocks.flatMap Extend.lostMembers := by
  intro url hurl
  obtain ⟨block, hblock, hmem⟩ := List.mem_flatMap.1 hurl
  exact List.mem_flatMap.2 ⟨block, hblock, block.keys_content_subset hmem⟩

/-- The members of a message are noted under their plain urls. -/
theorem TypeBody.keys_content_subset (owner : DeclUrl) (body : TypeBody) :
    (body.content owner).keys ⊆ lostFields owner body.allFields := by
  rw [TypeBody.keys_content]
  intro url hurl
  obtain ⟨field, hfield, rfl⟩ := List.mem_map.1 hurl
  exact List.mem_flatMap.2 ⟨field, hfield, plainKey_mem_memberUrls owner field⟩

/-- The content of a type is its own, and the one of the types nested in it. -/
theorem TypeDecl.contentOfAll_singleton (type : TypeDecl) :
    TypeDecl.contentOfAll [type] = type.ownContent ++ TypeDecl.contentOfAll type.nested := by
  rw [contentOfAll, preorderAll, preorder_eq, preorderAll, List.append_nil, Content.ofAll_cons]
  rfl

theorem TypeDecl.contentOfAll_append (types more : List TypeDecl) :
    TypeDecl.contentOfAll (types ++ more) =
      TypeDecl.contentOfAll types ++ TypeDecl.contentOfAll more := by
  rw [contentOfAll, preorderAll_append, Content.ofAll_append]
  rfl

/-- The content of a forest is the one of its trees. -/
theorem TypeDecl.ofAll_contentOfAll (types : List TypeDecl) :
    Content.ofAll (fun type => TypeDecl.contentOfAll [type]) types =
      TypeDecl.contentOfAll types := by
  induction types with
  | nil => rfl
  | cons type types ih =>
    rw [Content.ofAll_cons, ih]
    exact (contentOfAll_append [type] types).symm

mutual

/-- The fields of a type, and of all that is nested in it, are noted with it. -/
theorem TypeDecl.keys_content_subset :
    ∀ type : TypeDecl, (TypeDecl.contentOfAll [type]).keys ⊆ type.lostMembers
  | ⟨head, nested⟩ => by
    intro url hurl
    rw [contentOfAll_singleton] at hurl
    rw [TypeDecl.lostMembers]
    simp only [Content.keys_append, List.mem_append, ownContent, Content.ofOptions] at hurl ⊢
    rcases hurl with (hnone | hbody | hblocks) | hnested
    · cases hnone
    · exact .inl (.inl (TypeBody.keys_content_subset head.url head.body hbody))
    · exact .inl (.inr (keys_extends_subset head.extensions hblocks))
    · exact .inr (keys_contentOfAll_subset nested hnested)

/-- The fields of a forest of types are noted with it. -/
theorem TypeDecl.keys_contentOfAll_subset :
    ∀ types : List TypeDecl, (TypeDecl.contentOfAll types).keys ⊆ TypeDecl.allLostMembers types
  | [] => List.nil_subset _
  | type :: types => by
    intro url hurl
    rw [← List.singleton_append, contentOfAll_append, Content.keys_append,
      List.mem_append] at hurl
    rw [TypeDecl.allLostMembers, List.mem_append]
    rcases hurl with hurl | hurl
    · exact .inl (TypeDecl.keys_content_subset type hurl)
    · exact .inr (keys_contentOfAll_subset types hurl)

end

/-- A service declares no fields. -/
theorem Service.keys_content (service : Service) : service.content.keys = [] := by
  simp [Service.content, Rpc.content, Content.ofOptions, Content.ofAll]

/-- The fields of a file are noted with it. -/
theorem SchemaFile.keys_content_subset (file : SchemaFile) :
    file.content.keys ⊆ file.lostMembers := by
  intro url hurl
  simp only [SchemaFile.content, Content.keys_append, Content.ofOptions, List.mem_append] at hurl
  rw [SchemaFile.lostMembers, List.mem_append]
  rcases hurl with hnone | hservices | hblocks | htypes
  · cases hnone
  · obtain ⟨service, -, hmem⟩ := List.mem_flatMap.1 hservices
    rw [Service.keys_content] at hmem
    cases hmem
  · exact .inr (keys_extends_subset file.extensions hblocks)
  · exact .inl (TypeDecl.keys_contentOfAll_subset file.types htypes)

/-! ### The work of a filter -/

theorem prunes_filterFields {owner : DeclUrl} {key : Field → MemberUrl}
    (hkey : ∀ field : Field, key field ∈ field.memberUrls owner) (fields : List Field) :
    Prunes (keeper.filterFields owner fields) (.ofAll (Field.content key) fields)
      (.ofAll (Field.content key)) := by
  refine prunes_each (fun field => prunes_decide ?_ (.pure rfl)) fields
  intro url hurl
  obtain rfl := List.mem_singleton.1 hurl
  exact hkey field

theorem prunes_filterOneOf (owner : DeclUrl) (group : OneOf) :
    Prunes (keeper.filterOneOf owner group) (group.content owner)
      fun kept => .ofAll (OneOf.content owner) kept.toList := by
  refine prunes_decide (group.keys_content_subset owner) ?_
  exact .last (prunes_filterFields (plainKey_mem_memberUrls owner) group.fields) fun _ => rfl

theorem prunes_filterExtend (block : Extend) :
    Prunes (keeper.filterExtend block) block.content
      fun kept => .ofAll Extend.content kept.toList := by
  refine prunes_decide block.keys_content_subset ?_
  exact .map (prunes_filterFields (qualifiedKey_mem_memberUrls block.target) block.fields)
    fun _ => rfl

theorem prunes_filterConstant (constant : EnumConstant) :
    Prunes (keeper.filterConstant constant) constant.content
      fun kept => .ofAll EnumConstant.content kept.toList :=
  prunes_decide (List.Subset.refl _) (.pure rfl)

theorem prunes_filterRpc (rpc : Rpc) :
    Prunes (keeper.filterRpc rpc) rpc.content fun kept => .ofAll Rpc.content kept.toList :=
  prunes_decide (List.Subset.refl _) (.pure rfl)

theorem prunes_filterService (service : Service) :
    Prunes (keeper.filterService service) service.content
      fun kept => .ofAll Service.content kept.toList := by
  refine prunes_decide (by rw [service.keys_content]; exact List.Subset.refl _) ?_
  exact .last (prunes_each prunes_filterRpc service.rpcs) fun _ => rfl

theorem prunes_filterBody (owner : DeclUrl) (body : TypeBody) :
    Prunes (keeper.filterBody owner body) (body.content owner) (TypeBody.content owner) := by
  cases body with
  | message fields oneOfs =>
    refine .first (prunes_filterFields (plainKey_mem_memberUrls owner) fields) fun _ => ?_
    exact .last (prunes_each (prunes_filterOneOf owner) oneOfs) fun _ => rfl
  | enumeration constants =>
    exact .map (prunes_each prunes_filterConstant constants) fun _ => rfl
  | enclosing => exact .pure rfl

mutual

/-- What is kept of a type. -/
theorem prunes_filterType :
    ∀ type : TypeDecl, Prunes (keeper.filterType type) (TypeDecl.contentOfAll [type])
      fun kept => .ofAll (fun type => TypeDecl.contentOfAll [type]) kept.toList
  | ⟨head, nested⟩ => by
    rw [filterType]
    refine prunes_decide (TypeDecl.keys_content_subset ⟨head, nested⟩) ?_
    rw [TypeDecl.contentOfAll_singleton, TypeDecl.ownContent, Content.append_assoc,
      Content.append_assoc]
    refine .bind (prunes_filterBody head.url head.body) fun body => ?_
    rw [← Content.append_assoc]
    refine .bind (prunes_each prunes_filterExtend head.extensions) fun extensions => ?_
    rw [← Content.append_assoc]
    refine .last (prunes_filterTypes nested) fun types => ?_
    rw [TypeDecl.contentOfAll_singleton, TypeDecl.ownContent, Content.append_assoc,
      Content.append_assoc, Content.append_assoc]
    rfl

/-- What is kept of a forest of types. -/
theorem prunes_filterTypes :
    ∀ types : List TypeDecl, Prunes (keeper.filterTypes types) (TypeDecl.contentOfAll types)
      TypeDecl.contentOfAll
  | [] => .pure rfl
  | type :: types => by
    rw [filterTypes, ← List.singleton_append, TypeDecl.contentOfAll_append]
    refine .first (prunes_filterType type) fun kept =>
      .last (prunes_filterTypes types) fun keptTypes => ?_
    rw [TypeDecl.contentOfAll_append, TypeDecl.ofAll_contentOfAll]

end

/-- What is kept of a file. -/
theorem prunes_filterFile (file : SchemaFile) :
    Prunes (keeper.filterFile file) file.content
      fun kept => .ofAll SchemaFile.content kept.toList := by
  refine prunes_decide file.keys_content_subset ?_
  refine .bind (prunes_each prunes_filterService file.services) fun services => ?_
  rw [← Content.append_assoc]
  refine .bind (prunes_each prunes_filterExtend file.extensions) fun extensions => ?_
  rw [← Content.append_assoc]
  refine .last (prunes_filterTypes file.types) fun types => ?_
  simp only [SchemaFile.content, Content.append_assoc]

end SchemaForge
