import Mathlib.Data.Prod.Basic
import SchemaForge.Proofs.Resolver.Positions
set_option autoImplicit false

/-!
# Walks and lookups are inverse

The walks over a file make the positions of its declarations longer level by level. A lookup goes
down number by number from the top level. Each undoes the other: a walk lists a declaration at a
position exactly if the lookup finds it there, whatever the shape of the trees.

## Main results

* `SchemaForge.SchemaFile.mem_typesWithPaths_iff`,
  `SchemaForge.SchemaFile.mem_extendsWithPlaces_iff` — what is listed is what is found.
* `SchemaForge.SchemaFile.nodup_places_extendsWithPlaces` — no two extend blocks have the same
  place.
* `SchemaForge.walks_lead_back` — the walks over a file of a schema, and the lookups in the schema.
-/

namespace SchemaForge

/-! ### Types -/

/-- A walk lists the types to begin with, and then walks the next level; if there are none to begin
with, the next level is empty as well. -/
theorem levelsWithPaths_eq (entries : List (List Nat × TypeDecl)) :
    levelsWithPaths entries = entries ++ levelsWithPaths (entries.flatMap nestedWithPaths) := by
  cases entries with
  | nil => simp [levelsWithPaths]
  | cons entry entries => rw [levelsWithPaths]

/-- A type is listed if a path leads down to it from one of the types to begin with.

**Proof sketch.** Induction on the path, for any types to begin with: its first number leads to a
type of the next level, and the walk goes on there. -/
theorem mem_levelsWithPaths_of_descend? {entries : List (List Nat × TypeDecl)}
    {entry : List Nat × TypeDecl} (hentry : entry ∈ entries) {path : List Nat} {type : TypeDecl}
    (h : entry.2.descend? path = some type) :
    (entry.1 ++ path, type) ∈ levelsWithPaths entries := by
  induction path generalizing entries entry with
  | nil =>
    rw [TypeDecl.descend?, Option.some.injEq] at h
    subst h
    rw [List.append_nil, levelsWithPaths_eq]
    exact List.mem_append_left _ hentry
  | cons index path ih =>
    obtain ⟨below, hindex, hpath⟩ := Option.bind_eq_some_iff.1 h
    have hbelow : (entry.1 ++ [index], below) ∈ entries.flatMap nestedWithPaths :=
      List.mem_flatMap.2 ⟨entry, hentry, List.mem_map.2
        ⟨(below, index), List.mem_zipIdx_iff_getElem?.2 hindex, rfl⟩⟩
    have hlisted := ih hbelow hpath
    rw [List.append_assoc, List.singleton_append] at hlisted
    rw [levelsWithPaths_eq]
    exact List.mem_append_right _ hlisted

namespace SchemaFile

variable {file : SchemaFile}

/-- A type is listed with a path exactly if it is found there. -/
theorem mem_typesWithPaths_iff {path : List Nat} {type : TypeDecl} :
    (path, type) ∈ file.typesWithPaths ↔ file.typeAt? path = some type := by
  refine ⟨typeAt?_of_mem_typesWithPaths, fun h => ?_⟩
  cases path with
  | nil => cases h
  | cons index path =>
    obtain ⟨top, hindex, hpath⟩ := Option.bind_eq_some_iff.1 h
    have htop : ([index], top) ∈
        file.types.zipIdx.map fun entry => ([entry.2], entry.1) :=
      List.mem_map.2 ⟨(top, index), List.mem_zipIdx_iff_getElem?.2 hindex, rfl⟩
    exact mem_levelsWithPaths_of_descend? htop hpath

/-! ### Extend blocks -/

/-- An extend block is listed with a place exactly if it is found there. -/
theorem mem_extendsWithPlaces_iff {owner : Option (List Nat)} {index : Nat} {block : Extend} :
    ((owner, index), block) ∈ file.extendsWithPlaces ↔
      file.extendAt? owner index = some block := by
  refine ⟨extendAt?_of_mem_extendsWithPlaces, fun h => ?_⟩
  cases owner with
  | none => exact List.mem_append_left _ (mem_placesIn_iff.2 ⟨rfl, h⟩)
  | some path =>
    obtain ⟨type, htype, hindex⟩ := Option.bind_eq_some_iff.1 h
    exact List.mem_append_right _ (List.mem_flatMap.2
      ⟨(path, type), mem_typesWithPaths_iff.2 htype, mem_placesIn_iff.2 ⟨rfl, hindex⟩⟩)

/-- The places below an owner are its numbers. -/
theorem map_fst_placesIn (owner : Option (List Nat)) (blocks : List Extend) :
    (placesIn owner blocks).map Prod.fst = (blocks.zipIdx.map Prod.snd).map (Prod.mk owner) := by
  rw [placesIn, List.map_map, List.map_map]
  rfl

/-- No two extend blocks of a file have the same place.

**Proof sketch.** The blocks of the file itself have no owner, and those of types have one. The
owners are paths of types, which are pairwise different, and so are the numbers in each of them. -/
theorem nodup_places_extendsWithPlaces (file : SchemaFile) :
    (file.extendsWithPlaces.map Prod.fst).Nodup := by
  have hnested : ((file.typesWithPaths.flatMap fun entry =>
      placesIn (some entry.1) entry.2.extensions).map Prod.fst).Nodup := by
    have hposition : Function.Injective2 fun (path : List Nat) (index : Nat) =>
        (some path, index) := by
      rintro path path' index index' heq
      cases heq
      exact ⟨rfl, rfl⟩
    rw [List.map_flatMap]
    simp only [map_fst_placesIn]
    exact nodup_flatMap_positions hposition file.nodup_paths_typesWithPaths
      fun entry _ => nodup_map_snd_zipIdx entry.2.extensions
  have hown : ((placesIn none file.extensions).map Prod.fst).Nodup := by
    rw [map_fst_placesIn]
    exact (nodup_map_snd_zipIdx file.extensions).map (Prod.mk_right_injective none)
  rw [extendsWithPlaces, List.map_append, List.nodup_append]
  refine ⟨hown, hnested, ?_⟩
  rintro place hplace other hother rfl
  obtain ⟨⟨⟨owner, index⟩, block⟩, hmem, rfl⟩ := List.mem_map.1 hplace
  obtain ⟨rfl, -⟩ := mem_placesIn_iff.1 hmem
  obtain ⟨⟨⟨owner', index'⟩, block'⟩, hmem', heq⟩ := List.mem_map.1 hother
  obtain ⟨⟨path, type⟩, -, hplace'⟩ := List.mem_flatMap.1 hmem'
  obtain ⟨rfl, -⟩ := mem_placesIn_iff.1 hplace'
  cases heq

end SchemaFile

/-- **Positions lead back.** The walk over the types of a file lists all its types in their order;
its paths are pairwise different; and it lists a type with a path exactly if the type is found there
in the schema. The same holds of the walk over the extend blocks, and of their owners and
numbers.

**Proof sketch.** What is listed is found because each number of a path has been taken from the list
it counts (`SchemaFile.typeAt?_of_mem_typesWithPaths`). What is found is listed because the walk
goes on below every type (`mem_levelsWithPaths_of_descend?`). Paths of one level differ by induction
on the level, and those of two levels in their lengths (`IsLevel.pairwise_shortlex`). -/
theorem walks_lead_back (files : List SchemaFile) (fileIndex : Fin files.length) :
    let file := files[fileIndex]
    (file.typesWithPaths.map Prod.snd = file.allTypes ∧
      (file.typesWithPaths.map Prod.fst).Nodup ∧
      ∀ path type, (path, type) ∈ file.typesWithPaths ↔
        typeAt? files ⟨fileIndex, path⟩ = some type) ∧
    file.extendsWithPlaces.map Prod.snd = file.allExtensions ∧
      (file.extendsWithPlaces.map Prod.fst).Nodup ∧
      ∀ owner index block, ((owner, index), block) ∈ file.extendsWithPlaces ↔
        extendAt? files ⟨fileIndex, owner, index⟩ = some block := by
  intro file
  have hfile : files[fileIndex.val]? = some file := List.getElem?_eq_getElem fileIndex.isLt
  refine ⟨⟨file.map_snd_typesWithPaths, file.nodup_paths_typesWithPaths, ?_⟩,
    file.map_snd_extendsWithPlaces, file.nodup_places_extendsWithPlaces, ?_⟩
  · intro path type
    rw [typeAt?, hfile]
    exact SchemaFile.mem_typesWithPaths_iff
  · intro owner index block
    rw [extendAt?, hfile]
    exact SchemaFile.mem_extendsWithPlaces_iff

end SchemaForge
