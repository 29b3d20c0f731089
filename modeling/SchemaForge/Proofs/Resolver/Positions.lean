import Mathlib.Data.List.Nodup
import Mathlib.Data.List.Shortlex
import SchemaForge.Resolver.Position
set_option autoImplicit false

/-!
# Positions lead back

The walks over a file list its declarations with the positions at which they are found again.

## Main definitions

* `SchemaForge.IsLevel` — types with paths of one length, in document order.

## Main results

* `SchemaForge.SchemaFile.typeAt?_of_mem_typesWithPaths` — the path of a type leads to it.
* `SchemaForge.SchemaFile.extendAt?_of_mem_extendsWithPlaces` — so does the place of an extend
  block.
* `SchemaForge.IsLevel.pairwise_shortlex` — the walk over types is in level order.
* `SchemaForge.SchemaFile.nodup_paths_typesWithPaths` — no two types have the same path.
* `SchemaForge.SchemaFile.map_snd_typesWithPaths`,
  `SchemaForge.SchemaFile.map_snd_extendsWithPlaces` — what is listed are all the declarations.
-/

namespace SchemaForge

/-- The numbers in a list increase. -/
theorem pairwise_snd_lt_zipIdx {α : Type} (list : List α) :
    list.zipIdx.Pairwise fun a b => a.2 < b.2 := by
  rw [← List.pairwise_map, List.zipIdx_map_snd]
  exact List.pairwise_lt_range'

/-- The numbers in a list are pairwise different. -/
theorem nodup_map_snd_zipIdx {α : Type} (list : List α) : (list.zipIdx.map Prod.snd).Nodup :=
  (List.pairwise_map.2 (pairwise_snd_lt_zipIdx list)).nodup

/-- Positions put together from pairwise different ones around and pairwise different ones within
are pairwise different. -/
theorem nodup_flatMap_positions {α ρ σ π : Type} {position : ρ → σ → π}
    (hposition : Function.Injective2 position) {around : α → ρ} {within : α → List σ}
    {list : List α} (haround : (list.map around).Nodup)
    (hwithin : ∀ a ∈ list, (within a).Nodup) :
    (list.flatMap fun a => (within a).map (position (around a))).Nodup := by
  rw [List.nodup_flatMap]
  constructor
  · intro a ha
    exact (hwithin a ha).map (hposition.right (around a))
  · rw [List.Nodup, List.pairwise_map] at haround
    refine haround.imp ?_
    intro a b hne p ha hb
    obtain ⟨r, -, rfl⟩ := List.mem_map.1 ha
    obtain ⟨s, -, heq⟩ := List.mem_map.1 hb
    exact hne (hposition heq).1.symm

/-! ### Types -/

/-- The types with their paths, level by level, are the levels of the types. -/
theorem map_snd_levelsWithPaths (entries : List (List Nat × TypeDecl)) :
    (levelsWithPaths entries).map Prod.snd = TypeDecl.levels (entries.map Prod.snd) := by
  fun_induction levelsWithPaths entries with
  | case1 => simp [TypeDecl.levels]
  | case2 entry entries ih =>
    rw [List.map_append, ih, map_snd_flatMap_nestedWithPaths, List.map_cons, TypeDecl.levels]

/-- The path of a listed type is the path of one of the types to begin with, and then leads down
from there. -/
theorem descend?_of_mem_levelsWithPaths {entries : List (List Nat × TypeDecl)} {path : List Nat}
    {type : TypeDecl} (h : (path, type) ∈ levelsWithPaths entries) :
    ∃ entry ∈ entries, ∃ rest, path = entry.1 ++ rest ∧ entry.2.descend? rest = some type := by
  fun_induction levelsWithPaths entries with
  | case1 => cases h
  | case2 entry entries ih =>
    rcases List.mem_append.1 h with h | h
    · exact ⟨(path, type), h, [], (List.append_nil _).symm, rfl⟩
    · obtain ⟨below, hbelow, rest, rfl, hrest⟩ := ih h
      obtain ⟨above, habove, hnested⟩ := List.mem_flatMap.1 hbelow
      obtain ⟨⟨type', index⟩, hindex, rfl⟩ := List.mem_map.1 hnested
      have hfound : above.2.nested[index]? = some type' := List.mem_zipIdx_iff_getElem?.1 hindex
      refine ⟨above, habove, index :: rest, by simp, ?_⟩
      rw [TypeDecl.descend?, hfound]
      exact hrest

/-! ### Level order -/

/-- Of two lists of one length the one that is first in the lexicographic order stays the first,
whatever follows them. -/
theorem lex_append_of_length_eq {α : Type} {r : α → α → Prop} {list more : List α}
    (h : List.Lex r list more) (hlength : list.length = more.length) (rest rest' : List α) :
    List.Lex r (list ++ rest) (more ++ rest') := by
  induction h with
  | nil => cases hlength
  | rel hr => exact .rel hr
  | cons _ ih => exact .cons (ih (Nat.succ.inj hlength))

/-- The paths have one length and come in document order, which compares the first numbers in which
they differ. -/
structure IsLevel (depth : Nat) (entries : List (List Nat × TypeDecl)) : Prop where
  length_eq : ∀ entry ∈ entries, entry.1.length = depth
  pairwise_lex : entries.Pairwise fun entry next => List.Lex (· < ·) entry.1 next.1

/-- The types at the top level, with their numbers as paths, are a level. -/
theorem isLevel_zipIdx (types : List TypeDecl) :
    IsLevel 1 (types.zipIdx.map fun (type, index) => ([index], type)) where
  length_eq := by
    intro entry hentry
    obtain ⟨⟨type, index⟩, -, rfl⟩ := List.mem_map.1 hentry
    rfl
  pairwise_lex := by
    rw [List.pairwise_map]
    exact (pairwise_snd_lt_zipIdx types).imp fun hindex => .rel hindex

namespace IsLevel

variable {depth : Nat} {entries : List (List Nat × TypeDecl)}

/-- The types below a level are a level again. -/
theorem nested (h : IsLevel depth entries) :
    IsLevel (depth + 1) (entries.flatMap nestedWithPaths) where
  length_eq := by
    intro below hbelow
    obtain ⟨above, habove, hnested⟩ := List.mem_flatMap.1 hbelow
    obtain ⟨⟨type, index⟩, -, rfl⟩ := List.mem_map.1 hnested
    simp [h.length_eq above habove]
  pairwise_lex := by
    rw [List.pairwise_flatMap]
    constructor
    · -- below one type the numbers decide
      intro above _
      rw [nestedWithPaths, List.pairwise_map]
      refine (pairwise_snd_lt_zipIdx above.2.nested).imp ?_
      intro entry next hindex
      exact List.Lex.append_left _ (.rel hindex) above.1
    · -- below two types the order of these decides, as their paths have one length
      refine h.pairwise_lex.imp_of_mem ?_
      intro above next habove hnext hlex below hbelow other hother
      obtain ⟨⟨type, index⟩, -, rfl⟩ := List.mem_map.1 hbelow
      obtain ⟨⟨type', index'⟩, -, rfl⟩ := List.mem_map.1 hother
      have hlength : above.1.length = next.1.length :=
        (h.length_eq above habove).trans (h.length_eq next hnext).symm
      exact lex_append_of_length_eq hlex hlength [index] [index']

/-- **Level order.** The walk from a level lists types with shorter paths before those with longer
ones, and types with paths of one length in document order.

**Proof sketch.** Induction along the walk. The paths of the next level are longer by one, and those
of all levels below it begin with one of them. So every path of the first level is shorter than all
that come behind it. -/
theorem pairwise_shortlex (h : IsLevel depth entries) :
    ((levelsWithPaths entries).map Prod.fst).Pairwise (List.Shortlex (· < ·)) := by
  fun_induction levelsWithPaths entries generalizing depth with
  | case1 => exact .nil
  | case2 entry entries ih =>
    rw [List.map_append, List.pairwise_append]
    refine ⟨?_, ih h.nested, ?_⟩
    · rw [List.pairwise_map]
      refine h.pairwise_lex.imp_of_mem ?_
      intro above next habove hnext hlex
      exact .of_lex ((h.length_eq above habove).trans (h.length_eq next hnext).symm) hlex
    · intro path hpath other hother
      obtain ⟨top, htop, rfl⟩ := List.mem_map.1 hpath
      obtain ⟨⟨path', type⟩, hlisted, rfl⟩ := List.mem_map.1 hother
      obtain ⟨below, hbelow, rest, rfl, -⟩ := descend?_of_mem_levelsWithPaths hlisted
      apply List.Shortlex.of_length_lt
      rw [List.length_append, h.length_eq top htop, h.nested.length_eq below hbelow]
      omega

end IsLevel

namespace SchemaFile

/-- The walk over the types of a file is in level order. -/
theorem pairwise_paths_typesWithPaths (file : SchemaFile) :
    (file.typesWithPaths.map Prod.fst).Pairwise (List.Shortlex (· < ·)) :=
  (isLevel_zipIdx file.types).pairwise_shortlex

/-- No two types of a file have the same path. -/
theorem nodup_paths_typesWithPaths (file : SchemaFile) :
    (file.typesWithPaths.map Prod.fst).Nodup :=
  file.pairwise_paths_typesWithPaths.nodup

/-- Without their paths the listed types are all types of the file. -/
theorem map_snd_typesWithPaths (file : SchemaFile) :
    file.typesWithPaths.map Prod.snd = file.allTypes := by
  rw [typesWithPaths, map_snd_levelsWithPaths, List.map_map, allTypes]
  exact congrArg TypeDecl.levels (List.zipIdx_map_fst 0 file.types)

/-- The path of a listed type leads to it. -/
theorem typeAt?_of_mem_typesWithPaths {file : SchemaFile} {path : List Nat} {type : TypeDecl}
    (h : (path, type) ∈ file.typesWithPaths) : file.typeAt? path = some type := by
  obtain ⟨entry, hentry, rest, rfl, hrest⟩ := descend?_of_mem_levelsWithPaths h
  obtain ⟨⟨top, index⟩, hindex, rfl⟩ := List.mem_map.1 hentry
  have hfound : file.types[index]? = some top := List.mem_zipIdx_iff_getElem?.1 hindex
  change file.typeAt? (index :: rest) = some type
  rw [typeAt?, hfound]
  exact hrest

/-! ### Extend blocks -/

/-- Without their places the blocks are what they are. -/
theorem map_snd_placesIn (owner : Option (List Nat)) (blocks : List Extend) :
    (placesIn owner blocks).map Prod.snd = blocks := by
  rw [placesIn, List.map_map]
  exact List.zipIdx_map_fst 0 blocks

/-- Without their places the listed extend blocks are all extend blocks of the file. -/
theorem map_snd_extendsWithPlaces (file : SchemaFile) :
    file.extendsWithPlaces.map Prod.snd = file.allExtensions := by
  have hplaces : ∀ entry : List Nat × TypeDecl,
      (placesIn (some entry.1) entry.2.extensions).map Prod.snd = entry.2.extensions :=
    fun entry => map_snd_placesIn _ _
  rw [extendsWithPlaces, List.map_append, map_snd_placesIn, List.map_flatMap, allExtensions,
    ← map_snd_typesWithPaths, List.flatMap_map]
  simp only [hplaces]

/-- A block is listed below an owner exactly if it is found there. -/
theorem mem_placesIn_iff {owner owner' : Option (List Nat)} {blocks : List Extend} {index : Nat}
    {block : Extend} :
    ((owner', index), block) ∈ placesIn owner blocks ↔
      owner' = owner ∧ blocks[index]? = some block := by
  constructor
  · intro h
    obtain ⟨⟨block', index'⟩, hindex, heq⟩ := List.mem_map.1 h
    cases heq
    exact ⟨rfl, List.mem_zipIdx_iff_getElem?.1 hindex⟩
  · rintro ⟨rfl, hfound⟩
    exact List.mem_map.2 ⟨(block, index), List.mem_zipIdx_iff_getElem?.2 hfound, rfl⟩

/-- The place of a listed extend block leads to it. -/
theorem extendAt?_of_mem_extendsWithPlaces {file : SchemaFile} {owner : Option (List Nat)}
    {index : Nat} {block : Extend} (h : ((owner, index), block) ∈ file.extendsWithPlaces) :
    file.extendAt? owner index = some block := by
  rcases List.mem_append.1 h with h | h
  · obtain ⟨rfl, hblock⟩ := mem_placesIn_iff.1 h
    exact hblock
  · obtain ⟨⟨path, type⟩, htype, hplace⟩ := List.mem_flatMap.1 h
    obtain ⟨rfl, hblock⟩ := mem_placesIn_iff.1 hplace
    simp only [extendAt?]
    rw [typeAt?_of_mem_typesWithPaths htype]
    exact hblock

end SchemaFile

end SchemaForge
