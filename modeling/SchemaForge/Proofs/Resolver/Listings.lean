import Mathlib.Data.List.Perm.Basic
import SchemaForge.Proofs.Resolver.Lookups
set_option autoImplicit false

/-!
# Listings agree with lookups

A resolver lists its types and its services once for each url. What is listed under a url is what is
found under it, and the order is that of the files. Its extend blocks are listed as they are
written, and those of one type are the blocks of the listing that extend it.

## Main definitions

* `SchemaForge.ListsFound` — a listing holds what is found, once for each key and in order.
* `SchemaForge.withPositions` — the declarations of some files with their positions.

## Main results

* `SchemaForge.Resolver.allTypes_eq`, `SchemaForge.Resolver.allServices_eq` — what is listed.
* `SchemaForge.Resolver.extensionsOf_eq_filter` — the extend blocks of a type.
* `SchemaForge.Resolver.listings_agree_with_lookups` — the listings and the lookups.
-/

namespace SchemaForge

variable {α κ ρ π : Type}

/-- The listing holds for every key that is declared what is found under it, once, and in the order
in which these declarations stand among all. -/
structure ListsFound [DecidableEq κ] (key : α → κ) (declared : List α) (find? : κ → Option α)
    (listing : List α) : Prop where
  nodup : (listing.map key).Nodup
  mem_map_iff : ∀ k, k ∈ listing.map key ↔ k ∈ declared.map key
  filter_eq : ∀ k, listing.filter (fun a => key a == k) = (find? k).toList
  eq_lastOfEach : listing = lastOfEach key declared

/-- If the last declaration of each key is found, the listing of the last ones is such a listing. -/
theorem ListsFound.of_eq_lastOfEach [DecidableEq κ] {key : α → κ} {declared listing : List α}
    {find? : κ → Option α} (hfind : ∀ k, find? k = declared.findRev? fun a => key a == k)
    (hlisting : listing = lastOfEach key declared) : ListsFound key declared find? listing := by
  subst hlisting
  constructor
  · exact nodup_map_lastOfEach key declared
  · exact mem_map_lastOfEach key declared
  · intro k
    rw [filter_lastOfEach, hfind]
  · rfl

/-- Members grouped by pairwise different keys that include all of theirs are the same members. -/
theorem perm_flatMap_filter [DecidableEq κ] (key : α → κ) {keys : List κ} (hkeys : keys.Nodup)
    {list : List α} (hlist : ∀ a ∈ list, key a ∈ keys) :
    (keys.flatMap fun k => list.filter fun a => key a == k).Perm list := by
  induction keys generalizing list with
  | nil =>
    cases list with
    | nil => exact .refl _
    | cons a list => cases hlist a List.mem_cons_self
  | cons k keys ih =>
    rw [List.nodup_cons] at hkeys
    -- the groups of the other keys are those of the members that do not have the key `k`
    have hothers : (keys.flatMap fun k' => list.filter fun a => key a == k') =
        keys.flatMap fun k' =>
          (list.filter fun a => !(key a == k)).filter fun a => key a == k' := by
      refine List.flatMap_congr fun k' hk' => ?_
      rw [List.filter_filter]
      refine List.filter_congr fun a _ => ?_
      by_cases hkey : key a = k'
      · have hne : k' ≠ k := fun heq => hkeys.1 (heq ▸ hk')
        simp [hkey, hne]
      · simp [hkey]
    rw [List.flatMap_cons, hothers]
    refine .trans (.append_left _ (ih hkeys.2 ?_)) (List.filter_append_perm _ _)
    intro a ha
    obtain ⟨hmem, hkey⟩ := List.mem_filter.1 ha
    rcases List.mem_cons.1 (hlist a hmem) with heq | hkeys
    · simp [heq] at hkey
    · exact hkeys

/-! ### Declarations with their positions -/

/-- The declarations that are listed for each of some files with their places there, now with their
positions. -/
def withPositions (position : Nat → ρ → π) (listing : SchemaFile → List (ρ × α))
    (files : List SchemaFile) : List (π × α) :=
  files.zipIdx.flatMap fun (file, fileIndex) =>
    (listing file).map fun (place, a) => (position fileIndex place, a)

/-- Without their positions they are what is listed for the files. -/
theorem map_snd_withPositions (position : Nat → ρ → π) (listing : SchemaFile → List (ρ × α))
    (files : List SchemaFile) :
    (withPositions position listing files).map Prod.snd =
      files.flatMap fun file => (listing file).map Prod.snd := by
  rw [flatMap_eq_flatMap_zipIdx, withPositions, List.map_flatMap]
  simp only [List.map_map]
  rfl

/-- If the places in each file are pairwise different, the positions are. -/
theorem nodup_withPositions {position : Nat → ρ → π} (hposition : Function.Injective2 position)
    {listing : SchemaFile → List (ρ × α)} (hlisting : ∀ file, ((listing file).map Prod.fst).Nodup)
    (files : List SchemaFile) : ((withPositions position listing files).map Prod.fst).Nodup := by
  have hmap : (withPositions position listing files).map Prod.fst =
      files.zipIdx.flatMap fun entry =>
        ((listing entry.1).map Prod.fst).map (position entry.2) := by
    simp only [withPositions, List.map_flatMap, List.map_map]
    rfl
  rw [hmap]
  apply nodup_flatMap_positions hposition (nodup_map_snd_zipIdx files)
  intro entry _
  exact hlisting entry.1

/-- The services of a file with their numbers. -/
def SchemaFile.numberedServices (file : SchemaFile) : List (Nat × Service) :=
  file.services.zipIdx.map Prod.swap

namespace Resolver

/-! ### What is listed -/

/-- The types that are listed are the last ones of their urls. -/
theorem allTypes_eq (resolver : Resolver) :
    resolver.allTypes = lastOfEach TypeDecl.url (resolver.files.flatMap SchemaFile.allTypes) := by
  let listed := withPositions TypePosition.mk SchemaFile.typesWithPaths resolver.files
  have hlisted : resolver.allTypes = (listed.filter fun entry =>
      (indexOf (listed.map fun entry => (entry.2.url, entry.1)))[entry.2.url]? ==
        some entry.1).map Prod.snd := by
    simp only [allTypes, typeIndex, listed, withPositions, List.filter_flatMap, List.filter_map,
      List.map_flatMap, List.map_map]
    rfl
  have hnodup : (listed.map Prod.fst).Nodup := by
    refine nodup_withPositions ?_ SchemaFile.nodup_paths_typesWithPaths resolver.files
    rintro file file' path path' heq
    cases heq
    exact ⟨rfl, rfl⟩
  rw [hlisted, filter_indexed TypeDecl.url hnodup, map_lastOfEach TypeDecl.url Prod.snd,
    map_snd_withPositions]
  simp only [SchemaFile.map_snd_typesWithPaths]

/-- The services that are listed are the last ones of their urls. -/
theorem allServices_eq (resolver : Resolver) :
    resolver.allServices =
      lastOfEach Service.url (resolver.files.flatMap SchemaFile.services) := by
  let listed := withPositions Prod.mk SchemaFile.numberedServices resolver.files
  have hlisted : resolver.allServices = (listed.filter fun entry =>
      (indexOf (listed.map fun entry => (entry.2.url, entry.1)))[entry.2.url]? ==
        some entry.1).map Prod.snd := by
    simp only [allServices, serviceIndex, listed, withPositions, SchemaFile.numberedServices,
      List.filter_flatMap, List.filter_map, List.map_flatMap, List.map_map]
    rfl
  have hnodup : (listed.map Prod.fst).Nodup := by
    refine nodup_withPositions ?_ ?_ resolver.files
    · rintro file file' index index' heq
      cases heq
      exact ⟨rfl, rfl⟩
    · intro file
      rw [SchemaFile.numberedServices, List.map_map]
      exact nodup_map_snd_zipIdx file.services
  have hservices : ∀ file : SchemaFile, file.numberedServices.map Prod.snd = file.services := by
    intro file
    rw [SchemaFile.numberedServices, List.map_map]
    exact List.zipIdx_map_fst 0 file.services
  rw [hlisted, filter_indexed Service.url hnodup, map_lastOfEach Service.url Prod.snd,
    map_snd_withPositions]
  simp only [hservices]

/-! ### Extend blocks -/

/-- The entries for extend blocks lead to the blocks in the order of the listing. -/
theorem leads_extendEntries (resolver : Resolver) :
    Leads (extendAt? resolver.files) Extend.target id resolver.extendEntries
      resolver.allExtensions := by
  apply Leads.flatMap_zipIdx
  intro file fileIndex hfile
  rw [← SchemaFile.map_snd_extendsWithPlaces]
  apply Leads.map
  rintro ⟨⟨owner, index⟩, block⟩ hplace
  refine ⟨rfl, ?_⟩
  simp only [extendAt?, hfile]
  exact SchemaFile.extendAt?_of_mem_extendsWithPlaces hplace

/-- The extend blocks of a type are those of the listing that extend it. -/
theorem extensionsOf_eq_filter (resolver : Resolver) (target : DeclUrl) :
    resolver.extensionsOf target =
      resolver.allExtensions.filter fun block => block.target == target := by
  have hpositions : resolver.extendIndex.getD target [] =
      (resolver.extendEntries.filter fun entry => entry.1 == target).map Prod.snd := by
    have h := getD_foldl_insert resolver.extendEntries ∅ target
    rw [Std.HashMap.getD_empty, List.nil_append] at h
    exact h
  rw [extensionsOf, hpositions, resolver.leads_extendEntries.lookupAll, List.map_id]

/-- **Listings.** The listings of types and of services hold, once for each url that is declared,
what is found under it, in the order in which these declarations stand in the files. The extend
blocks of a type are those of the listing that extend it, in order; so every extend block at any
depth of any file is found under exactly one type, and once.

**Proof sketch.** No two declarations have the same position, so the listings keep exactly those
that are the last ones of their urls. The entries for extend blocks come in the order of the
listing, and the index collects the positions of each type in order. -/
theorem listings_agree_with_lookups (resolver : Resolver) :
    ListsFound TypeDecl.url (resolver.files.flatMap SchemaFile.allTypes) resolver.type?
        resolver.allTypes ∧
      (∀ url, url ∈ resolver.allTypes.map TypeDecl.url ↔
        ∃ file ∈ resolver.files, ∃ type ∈ TypeDecl.preorderAll file.types, type.url = url) ∧
      ListsFound Service.url (resolver.files.flatMap SchemaFile.services) resolver.service?
        resolver.allServices ∧
      (∀ target, resolver.extensionsOf target =
        resolver.allExtensions.filter fun block => block.target == target) ∧
      ((resolver.allExtensions.map Extend.target).dedup.flatMap resolver.extensionsOf).Perm
        (resolver.files.flatMap fun file => file.extensions ++
          (TypeDecl.preorderAll file.types).flatMap TypeDecl.extensions) := by
  have htypes := ListsFound.of_eq_lastOfEach resolver.type?_eq_findRev?_allTypes
    resolver.allTypes_eq
  refine ⟨htypes, ?_, .of_eq_lastOfEach resolver.service?_eq_findRev? resolver.allServices_eq,
    resolver.extensionsOf_eq_filter, ?_⟩
  · intro url
    simp only [htypes.mem_map_iff, List.mem_map, List.mem_flatMap]
    constructor
    · rintro ⟨type, ⟨file, hfile, htype⟩, hurl⟩
      exact ⟨file, hfile, type, (TypeDecl.levels_perm file.types).mem_iff.1 htype, hurl⟩
    · rintro ⟨file, hfile, type, htype, hurl⟩
      exact ⟨type, ⟨file, hfile, (TypeDecl.levels_perm file.types).mem_iff.2 htype⟩, hurl⟩
  · have hgroups : ((resolver.allExtensions.map Extend.target).dedup.flatMap
        resolver.extensionsOf).Perm resolver.allExtensions := by
      rw [funext resolver.extensionsOf_eq_filter]
      apply perm_flatMap_filter Extend.target (List.nodup_dedup _)
      intro block hblock
      exact List.mem_dedup.2 (List.mem_map_of_mem hblock)
    refine hgroups.trans (List.Perm.flatMap (.refl _) ?_)
    intro file _
    exact .append_left _ ((TypeDecl.levels_perm file.types).flatMap fun _ _ => .refl _)

end Resolver

end SchemaForge
