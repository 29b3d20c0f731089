import SchemaForge.Proofs.Resolver.FieldKeys
import SchemaForge.Proofs.Resolver.Stripping
set_option autoImplicit false

/-!
# Options that are carried through a filter

An option refers to a field by a url. A filter takes an option away because of the url, not because
of the field that is found there: it is enough that some field that has disappeared is known under
the url. This may be another field than the one that is found, for a field of an extend block is
looked up under its qualified name, and known under its plain name as well.

## Main definitions

* `SchemaForge.Resolver.CarriesFound` — options are carried if the fields that are found survive.

## Main results

* `SchemaForge.Resolver.exists_site_of_field?` — the field that is found is known under the url.
* `SchemaForge.Resolver.carries_option_iff` — which options are carried.
* `SchemaForge.Resolver.not_carriesFound_shadowed` — an option that is lost though the field that is
  found survives.
-/

namespace SchemaForge

/-! ### Fields and their places -/

namespace Forest

variable {α β : Type}

/-- The labels of the members of a list, one after the other. -/
theorem labels_ofAll (forest : α → Forest β) (list : List α) :
    (ofAll forest list).labels = list.flatMap fun a => (forest a).labels := by
  induction list with
  | nil => rfl
  | cons a list ih => rw [ofAll_cons, labels_append, ih, List.flatMap_cons]

/-- The labels of a member of a list are among those of the list. -/
theorem labels_subset_ofAll {forest : α → Forest β} {list : List α} {a : α} (h : a ∈ list) :
    (forest a).labels ⊆ (ofAll forest list).labels := by
  rw [labels_ofAll]
  exact fun label hlabel => List.mem_flatMap.2 ⟨a, h, hlabel⟩

/-- What is below a root is in the tree. -/
theorem labels_subset_tree (label : α) (below : Forest α) :
    below.labels ⊆ (tree label below).labels := by
  intro other hother
  simp only [tree, labels, List.append_nil]
  exact List.mem_cons_of_mem label hother

end Forest

/-- A field of an extend block has its place. -/
theorem Extend.mem_labels_forest {block : Extend} {field : Field} (h : field ∈ block.fields) :
    ⟨.field field, some block.target⟩ ∈ block.forest.labels :=
  Forest.labels_subset_tree _ _ (Forest.labels_subset_ofAll h List.mem_cons_self)

/-- A field of a message has its place. -/
theorem TypeBody.mem_labels_forest {owner : DeclUrl} {body : TypeBody} {field : Field}
    (h : field ∈ body.allFields) : ⟨.field field, some owner⟩ ∈ (body.forest owner).labels := by
  cases body with
  | message fields oneOfs =>
    rw [forest, Forest.labels_append, List.mem_append]
    rcases List.mem_append.1 h with hplain | hmember
    · exact .inl (Forest.labels_subset_ofAll hplain List.mem_cons_self)
    · obtain ⟨group, hgroup, hfield⟩ := List.mem_flatMap.1 hmember
      refine .inr (Forest.labels_subset_ofAll hgroup ?_)
      exact Forest.labels_subset_tree _ _ (Forest.labels_subset_ofAll hfield List.mem_cons_self)
  | enumeration constants => cases h
  | enclosing => cases h

/-- The types nested in a type are below it. -/
theorem TypeDecl.labels_nested_subset (type : TypeDecl) :
    (forestOfAll type.nested).labels ⊆ type.forestBelow.labels := by
  rw [forestBelow, Forest.labels_append, Forest.labels_append]
  exact List.Subset.trans (List.subset_append_right _ _) (List.subset_append_right _ _)

mutual

/-- What is below a type that is nested in another one at any depth is in the tree of this one. -/
theorem TypeDecl.labels_subset_forest : ∀ {type inner : TypeDecl}, inner ∈ type.preorder →
    inner.forestBelow.labels ⊆ type.forest.labels
  | ⟨head, nested⟩, inner, h => by
    rw [preorder] at h
    rw [TypeDecl.forest_eq]
    refine List.Subset.trans ?_ (Forest.labels_subset_tree _ _)
    rcases List.mem_cons.1 h with rfl | hnested
    · exact List.Subset.refl _
    · exact List.Subset.trans (TypeDecl.labels_subset_forestOfAll hnested)
        (TypeDecl.labels_nested_subset ⟨head, nested⟩)

/-- The same for types side by side. -/
theorem TypeDecl.labels_subset_forestOfAll : ∀ {types : List TypeDecl} {inner : TypeDecl},
    inner ∈ preorderAll types → inner.forestBelow.labels ⊆ (forestOfAll types).labels
  | [], inner, h => by cases h
  | type :: types, inner, h => by
    rw [forestOfAll, Forest.labels_append]
    rcases List.mem_append.1 h with hfirst | hother
    · exact List.Subset.trans (TypeDecl.labels_subset_forest hfirst)
        (List.subset_append_left _ _)
    · exact List.Subset.trans (TypeDecl.labels_subset_forestOfAll hother)
        (List.subset_append_right _ _)

end

namespace SchemaFile

variable {file : SchemaFile}

/-- What is below a type of a file is in the tree of the file. -/
theorem labels_subset_forest_of_mem_allTypes {type : TypeDecl} (h : type ∈ file.allTypes) :
    type.forestBelow.labels ⊆ file.forest.labels := by
  have hpreorder := (TypeDecl.levels_perm file.types).mem_iff.1 h
  refine List.Subset.trans ?_ (Forest.labels_subset_tree _ _)
  rw [Forest.labels_append, Forest.labels_append]
  exact List.Subset.trans (TypeDecl.labels_subset_forestOfAll hpreorder)
    (List.Subset.trans (List.subset_append_right _ _) (List.subset_append_right _ _))

/-- A field of a message of the file has its place. -/
theorem mem_labels_forest_of_mem_allTypes {type : TypeDecl} {field : Field}
    (htype : type ∈ file.allTypes) (hfield : field ∈ type.head.allFields) :
    ⟨.field field, some type.url⟩ ∈ file.forest.labels := by
  refine labels_subset_forest_of_mem_allTypes htype ?_
  rw [TypeDecl.forestBelow, Forest.labels_append]
  exact List.mem_append_left _ (TypeBody.mem_labels_forest hfield)

/-- A field of an extend block of the file has its place. -/
theorem mem_labels_forest_of_mem_allExtensions {block : Extend} {field : Field}
    (hblock : block ∈ file.allExtensions) (hfield : field ∈ block.fields) :
    ⟨.field field, some block.target⟩ ∈ file.forest.labels := by
  have hplace := Extend.mem_labels_forest hfield
  rcases List.mem_append.1 hblock with htop | hnested
  · refine Forest.labels_subset_tree _ _ ?_
    rw [Forest.labels_append, Forest.labels_append]
    exact List.mem_append_right _ (List.mem_append_left _ (Forest.labels_subset_ofAll htop hplace))
  · obtain ⟨type, htype, hextension⟩ := List.mem_flatMap.1 hnested
    refine labels_subset_forest_of_mem_allTypes htype ?_
    rw [TypeDecl.forestBelow, Forest.labels_append, Forest.labels_append]
    exact List.mem_append_right _
      (List.mem_append_left _ (Forest.labels_subset_ofAll hextension hplace))

end SchemaFile

/-! ### The field that is found -/

namespace Resolver

/-- **Lookup.** The field that is found under a url has a place in the forest, and is known under
the url.

**Proof sketch.** What is found is declared under the url, by a message or by an extend block. -/
theorem exists_site_of_field? {resolver : Resolver} {url : MemberUrl} {field : Field}
    (h : resolver.field? url = some field) :
    ∃ site ∈ resolver.forest.labels, site.node = .field field ∧ site.Names url := by
  obtain ⟨file, hfile, hkeyed⟩ := exists_of_field? h
  have hlabels : file.forest.labels ⊆ resolver.forest.labels :=
    Forest.labels_subset_ofAll hfile
  rcases SchemaFile.mem_keyedFields.1 hkeyed with
    ⟨block, hblock, declared, hmem, heq⟩ | ⟨type, htype, declared, hmem, heq⟩
  · cases heq
    refine ⟨⟨.field field, some block.target⟩, hlabels ?_, rfl, field, rfl, rfl, .inr rfl⟩
    exact SchemaFile.mem_labels_forest_of_mem_allExtensions hblock hmem
  · cases heq
    refine ⟨⟨.field field, some type.url⟩, hlabels ?_, rfl, field, rfl, rfl, .inl rfl⟩
    exact SchemaFile.mem_labels_forest_of_mem_allTypes htype hmem

end Resolver

/-! ### What is carried -/

/-- Of the options of a field that is removed none is left, and every other option is left with its
name and its field. -/
theorem Options.exists_mem_without_iff {removed : MemberUrl → Bool} {options : Options}
    {option : SchemaOption} (h : option ∈ options) :
    (∃ left ∈ options.without removed, left.name = option.name ∧ left.field = option.field) ↔
      removed option.field = false := by
  constructor
  · rintro ⟨left, hleft, -, hfield⟩
    obtain ⟨before, hbefore, rfl⟩ := List.mem_map.1 hleft
    have hkept := (List.mem_filter.1 hbefore).2
    rw [← hfield]
    change removed before.field = false
    simpa using hkept
  · intro hkept
    exact ⟨option.without removed,
      List.mem_map.2 ⟨option, List.mem_filter.2 ⟨h, by simp [hkept]⟩, rfl⟩, rfl, rfl⟩

namespace Resolver

/-- Where a place is kept, and no other one is known under a url, none that is absent is. -/
theorem not_names_of_mem_absent {cutting : Cutting Site} {f : Forest Site} {site : Site}
    {url : MemberUrl} (hperm : (cutting.absent ++ cutting.remains.labels).Perm f.labels)
    (hsite : site ∈ cutting.remains.labels)
    (hother : ∀ other ∈ f.labels.erase site, ¬ other.Names url) :
    ∀ gone ∈ cutting.absent, ¬ gone.Names url := by
  intro gone hgone
  have herase := (List.perm_append_comm.trans hperm).erase site
  rw [List.erase_append_left _ hsite] at herase
  exact hother gone (herase.mem_iff.1 (List.mem_append_right _ hgone))

/-- **Carried options.** Let a filter keep some of the nodes of a schema; the others are absent. A
node that is kept has kept an option exactly if no absent field is known under the url of the
option. A field is known under a url if the owner is its message or the type that is extended, and
the member is its name or its qualified name. The field that is found under the url is known under
it. So if it is kept, and no other field is known under the url, then the option is kept.

**Proof sketch.** The filter notes the urls under which absent fields are known, and takes the
options with these urls away. -/
theorem carries_option_iff {σ : Type} (resolver : Resolver) (keeper : Keeper σ) (memory : σ) :
    let cutting := (keeper.judge resolver.forest memory).1
    (cutting.absent ++ cutting.remains.labels).Perm resolver.forest.labels ∧
      List.Forall₂
        (fun before after : Node => after.bare = before.bare ∧
          ∀ option ∈ before.options?.getD [],
            (∃ left ∈ after.options?.getD [],
              left.name = option.name ∧ left.field = option.field) ↔
            ∀ gone ∈ cutting.absent, ¬ gone.Names option.field)
        cutting.remains.nodes
        ((resolver.filter keeper memory).1.files.flatMap SchemaFile.nodes) ∧
      ∀ url field, resolver.field? url = some field →
        ∃ site ∈ resolver.forest.labels, site.node = .field field ∧ site.Names url ∧
          (site ∈ cutting.remains.labels →
            (∀ other ∈ resolver.forest.labels.erase site, ¬ other.Names url) →
            ∀ gone ∈ cutting.absent, ¬ gone.Names url) := by
  intro cutting
  have hwhole : cutting.whole = resolver.forest :=
    Forest.whole_judge keeper.askAt resolver.forest memory
  have hperm : (cutting.absent ++ cutting.remains.labels).Perm resolver.forest.labels :=
    hwhole ▸ cutting.absent_perm
  have hkept : ∀ url, (resolver.cut keeper memory).2.removed.contains url = false ↔
      ∀ gone ∈ cutting.absent, ¬ gone.Names url := by
    intro url
    rw [← Bool.not_eq_true, List.contains_iff_mem, mem_removed_cut, not_exists]
    simp only [not_and]
    rfl
  refine ⟨hperm, ?_, fun url field hfield => ?_⟩
  · refine (forall₂_emptied_filter resolver keeper memory).imp fun before after hafter => ⟨?_, ?_⟩
    · rw [Node.bare, hafter, Node.mapOptions_mapOptions]
      rfl
    · intro option hoption
      rw [← hkept, ← after.options?_emptied, hafter, Node.options?_mapOptions,
        Node.options?_emptied]
      cases hoptions : before.options? with
      | none =>
        rw [hoptions] at hoption
        cases hoption
      | some options =>
        rw [hoptions] at hoption
        exact Options.exists_mem_without_iff hoption
  · obtain ⟨site, hsite, hnode, hnames⟩ := exists_site_of_field? hfield
    exact ⟨site, hsite, hnode, hnames, not_names_of_mem_absent hperm⟩

/-! ### An option that is lost -/

/-- Every node that is kept has kept the options whose field is found and survives: it has a place
among the nodes that are kept, and none among those that are absent. -/
def CarriesFound {σ : Type} (resolver : Resolver) (keeper : Keeper σ) (memory : σ) : Prop :=
  let cutting := (keeper.judge resolver.forest memory).1
  List.Forall₂
    (fun before after : Node => ∀ option ∈ before.options?.getD [], ∀ field,
      resolver.field? option.field = some field →
      (∃ site ∈ cutting.remains.labels, site.node = .field field ∧ site.Names option.field) →
      (∀ gone ∈ cutting.absent, gone.node ≠ .field field) →
      ∃ left ∈ after.options?.getD [], left.name = option.name ∧ left.field = option.field)
    cutting.remains.nodes
    ((resolver.filter keeper memory).1.files.flatMap SchemaFile.nodes)

/-- The field `x` of a message. -/
def plainField : Field := ⟨1, "x", [], "", ⟨"string"⟩, .singular, .unknown, false, []⟩

/-- A field `x` that is declared in the package `p` for a message. -/
def extensionField : Field :=
  { plainField with tag := 100, isExtension := true, scopeNames := ["p"] }

/-- The url of the field of the message. -/
def plainUrl : MemberUrl := ⟨⟨"p.T"⟩, "x"⟩

/-- The option that refers to the field of the message. -/
def plainOption : SchemaOption := ⟨"x", plainUrl, none⟩

/-- The message with some options. -/
def shadowedType (options : Options) : TypeDecl :=
  ⟨⟨"T", "", ⟨"p.T"⟩, options, .unknown, [], .message [plainField] []⟩, []⟩

/-- The message has a field, is extended by another one of the same plain name, and has an option
that refers to its own field. -/
def shadowedFile : SchemaFile :=
  ⟨"f", ⟨"p"⟩, [], [], [⟨⟨"p.T"⟩, "", [extensionField], "", .unknown⟩], .unknown, [],
    [shadowedType [plainOption]]⟩

/-- The keeper that rejects the field of the extend block. -/
def shadowingKeeper : Keeper Unit := fun node _ memory => (node ≠ .field extensionField, memory)

/-- The field that is found under the url is the one of the message. -/
theorem field?_shadowed : field? ⟨[shadowedFile]⟩ plainUrl = some plainField := by
  have htypes : shadowedFile.allTypes = shadowedFile.types := by
    simp [SchemaFile.allTypes, TypeDecl.levels, shadowedFile, shadowedType]
  rw [field?_eq_findRev?]
  simp only [List.flatMap_cons, List.flatMap_nil, SchemaFile.keyedFields,
    SchemaFile.extensionFields, SchemaFile.messageFields, SchemaFile.allExtensions, htypes]
  decide

/-- The option is lost with the field of the extend block, though the field of the message is found
and survives. -/
theorem not_carriesFound_shadowed : ¬ CarriesFound ⟨[shadowedFile]⟩ shadowingKeeper () := by
  intro h
  obtain ⟨-, hpairs⟩ := List.forall₂_iff_zip.1 h
  have htype := @hpairs (.type (shadowedType [plainOption])) (.type (shadowedType [])) (by decide)
  obtain ⟨left, hleft, -⟩ := htype plainOption (by decide) plainField field?_shadowed
    ⟨⟨.field plainField, some ⟨"p.T"⟩⟩, by decide, rfl, plainField, rfl, by decide⟩ (by decide)
  cases hleft

end Resolver

end SchemaForge
