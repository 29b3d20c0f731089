import Mathlib.Data.List.Forall2
import SchemaForge.Proofs.Resolver.Places
import SchemaForge.Proofs.Schema.Preorder
set_option autoImplicit false

/-!
# The declarations of a file in a flat list

The trees of declarations in a file are flattened level by level. A declaration stands at a path:
the number of the tree that it is in, and then for each level the number of the declaration below
which it is found. The flat list has one entry for each path, shorter paths come first, and those of
one length in document order. Extend blocks come in the order of the types around them, whether they
are collected from a file or from a single type.

## Main definitions

* `SchemaForge.SchemaFile.Declares` — the declaration at a path.

## Main results

* `SchemaForge.SchemaFile.declares_iff_typeAt?` — it is what is looked up there.
* `SchemaForge.TypeDecl.extensionsByLevel_eq` — the extend blocks of a forest are those of its
  levels.
* `SchemaForge.SchemaFile.flattened_in_level_order` — the flat lists of a file.
-/

namespace SchemaForge

namespace TypeDecl

/-! ### Extend blocks of a forest -/

/-- The extend blocks collected level by level are those of the types listed level by level. -/
theorem extensionsByLevel_eq (types : List TypeDecl) :
    extensionsByLevel types = (levels types).flatMap extensions := by
  fun_induction levels types with
  | case1 => simp [extensionsByLevel]
  | case2 type types ih => rw [extensionsByLevel, ih, List.flatMap_append]

/-- A forest holds the same declarations level by level as it does tree by tree. -/
theorem levels_perm_flatMap (types : List TypeDecl) :
    (levels types).Perm (types.flatMap fun type => levels [type]) := by
  refine (levels_perm types).trans ?_
  induction types with
  | nil => exact .refl _
  | cons type types ih =>
    have htree : type.preorder.Perm (levels [type]) := by
      have hsingle := (levels_perm [type]).symm
      rwa [preorderAll, preorderAll, List.append_nil] at hsingle
    rw [preorderAll, List.flatMap_cons]
    exact htree.append ih

/-- So do their extend blocks. -/
theorem flatMap_extensions_levels_perm (types : List TypeDecl) :
    ((levels types).flatMap extensions).Perm (types.flatMap allExtensions) := by
  have htree : allExtensions = fun type => (levels [type]).flatMap extensions :=
    funext fun type => extensionsByLevel_eq [type]
  rw [htree, ← List.flatMap_assoc]
  exact (levels_perm_flatMap types).flatMap_right extensions

end TypeDecl

/-! ### Declarations at their paths -/

/-- A path that another one follows leads down along both. -/
theorem TypeDecl.descend?_append (type : TypeDecl) (path more : List Nat) :
    type.descend? (path ++ more) = (type.descend? path).bind fun below => below.descend? more := by
  induction path generalizing type with
  | nil => rfl
  | cons index path ih =>
    rw [List.cons_append, descend?, descend?]
    cases type.nested[index]? with
    | none => rfl
    | some below => exact ih below

namespace SchemaFile

/-- `file.Declares path type` says that `type` stands at `path`: a tree of the file at its number,
and a declaration that is nested in another one at the path of this one followed by its number
there. -/
inductive Declares (file : SchemaFile) : List Nat → TypeDecl → Prop
  | top {index : Nat} {type : TypeDecl} (h : file.types[index]? = some type) :
    Declares file [index] type
  | nested {path : List Nat} {index : Nat} {outer type : TypeDecl}
    (houter : Declares file path outer) (h : outer.nested[index]? = some type) :
    Declares file (path ++ [index]) type

variable {file : SchemaFile}

/-- Whatever is found below a declaration is declared. -/
theorem Declares.descend {path : List Nat} {outer : TypeDecl} (houter : file.Declares path outer)
    {more : List Nat} {type : TypeDecl} (h : outer.descend? more = some type) :
    file.Declares (path ++ more) type := by
  induction more generalizing path outer with
  | nil =>
    cases h
    rwa [List.append_nil]
  | cons index more ih =>
    obtain ⟨below, hindex, hmore⟩ := Option.bind_eq_some_iff.1 h
    have hdeclared := ih (houter.nested hindex) hmore
    rwa [List.append_assoc, List.singleton_append] at hdeclared

/-- The declaration at a path is what is looked up there. -/
theorem declares_iff_typeAt? {path : List Nat} {type : TypeDecl} :
    file.Declares path type ↔ file.typeAt? path = some type := by
  constructor
  · intro h
    induction h with
    | top h => rw [typeAt?, h]; rfl
    | @nested path index outer type houter h ih =>
      cases path with
      | nil => cases ih
      | cons first path =>
        obtain ⟨tree, htree, hpath⟩ := Option.bind_eq_some_iff.1 ih
        rw [List.cons_append, typeAt?, htree]
        change tree.descend? (path ++ [index]) = some type
        rw [TypeDecl.descend?_append, hpath, Option.bind_some, TypeDecl.descend?, h]
        rfl
  · intro h
    cases path with
    | nil => cases h
    | cons first path =>
      obtain ⟨tree, htree, hpath⟩ := Option.bind_eq_some_iff.1 h
      exact (Declares.top htree).descend hpath

/-! ### Flat lists -/

/-- **Flattening.** The flat list of the types of a file has exactly one entry for each path at
which a type is declared, in level order of these paths: those with fewer numbers come first, and
those with equally many in document order, which compares first the paths of the types around and
then the numbers in these. The flat list of extend blocks has those of the file itself and then
those of the listed types, in their order; it holds the same blocks as the file itself together with
what is collected from each of its trees; and if the file is nothing but one tree, the list is what
is collected from this tree.

**Proof sketch.** The paths are those of the walk over the types. It lists what is found, and is in
level order. The blocks collected from a forest are those of its levels, and these hold the same
declarations as the levels of all its trees. -/
theorem flattened_in_level_order (file : SchemaFile) :
    (∃ paths : List (List Nat), List.Forall₂ file.Declares paths file.allTypes ∧
      (∀ path, path ∈ paths ↔ ∃ type, file.Declares path type) ∧
      paths.Pairwise (List.Shortlex (· < ·))) ∧
    file.allExtensions = file.extensions ++ file.allTypes.flatMap TypeDecl.extensions ∧
    file.allExtensions.Perm (file.extensions ++ file.types.flatMap TypeDecl.allExtensions) ∧
    ∀ type, { file with extensions := [], types := [type] }.allExtensions =
      type.allExtensions := by
  refine ⟨⟨file.typesWithPaths.map Prod.fst, ?_, ?_, file.pairwise_paths_typesWithPaths⟩, rfl, ?_,
    ?_⟩
  · rw [← file.map_snd_typesWithPaths, List.forall₂_map_left_iff, List.forall₂_map_right_iff,
      List.forall₂_same]
    rintro ⟨path, type⟩ hlisted
    exact declares_iff_typeAt?.2 (mem_typesWithPaths_iff.1 hlisted)
  · intro path
    simp only [List.mem_map, Prod.exists, declares_iff_typeAt?, ← mem_typesWithPaths_iff]
    constructor
    · rintro ⟨_, type, hlisted, rfl⟩
      exact ⟨type, hlisted⟩
    · rintro ⟨type, hlisted⟩
      exact ⟨path, type, hlisted, rfl⟩
  · exact (TypeDecl.flatMap_extensions_levels_perm file.types).append_left _
  · intro type
    rw [TypeDecl.allExtensions, TypeDecl.extensionsByLevel_eq]
    rfl

end SchemaFile

end SchemaForge
