import SchemaForge.Proofs.Resolver.Listings
import SchemaForge.Proofs.Resolver.Locations
set_option autoImplicit false

/-!
# Lookups in merged resolvers

Resolvers are merged by putting their files one after the other. All the positions in the indexes
change by this, but what is found does not depend on positions: a lookup that takes the last
declaration under a key takes the answer of the last part that has one, and a listing of all
declarations is made of the listings of the parts.

## Main results

* `SchemaForge.findRev?_flatMap` — the last member of several lists that passes a test.
* `SchemaForge.Resolver.lookup_merge` — a lookup of the last declaration in a merged resolver.
* `SchemaForge.Resolver.merge_map_merge` — merging in groups.
* `SchemaForge.Resolver.merge_determined_by_parts` — all lookups in a merged resolver.
-/

namespace SchemaForge

variable {α β γ : Type}

/-! ### The last list that has a member -/

theorem findSomeRev?_cons (f : α → Option β) (a : α) (list : List α) :
    (a :: list).findSomeRev? f = (list.findSomeRev? f).or (f a) := by
  rw [List.findSomeRev?]
  cases list.findSomeRev? f <;> rfl

theorem findSomeRev?_map (f : α → Option β) (g : β → γ) (list : List α) :
    (list.findSomeRev? f).map g = list.findSomeRev? fun a => (f a).map g := by
  induction list with
  | nil => rfl
  | cons a list ih => rw [findSomeRev?_cons, findSomeRev?_cons, Option.map_or, ih]

/-- The last member of several lists that passes a test is that of the last list with such a
member. -/
theorem findRev?_flatMap (test : β → Bool) (f : α → List β) (list : List α) :
    (list.flatMap f).findRev? test = list.findSomeRev? fun a => (f a).findRev? test := by
  induction list with
  | nil => rfl
  | cons a list ih => rw [List.flatMap_cons, findRev?_append, findSomeRev?_cons, ih]

namespace Resolver

/-! ### Merging -/

theorem files_merge (resolvers : List Resolver) :
    (merge resolvers).files = resolvers.flatMap files := rfl

/-- What is listed for the files of a merged resolver is listed for the files of its parts. -/
theorem flatMap_files_merge (listed : SchemaFile → List α) (resolvers : List Resolver) :
    (merge resolvers).files.flatMap listed =
      resolvers.flatMap fun resolver => resolver.files.flatMap listed := by
  rw [files_merge, List.flatMap_assoc]

/-- A resolver is what is merged of it alone. -/
theorem merge_singleton (resolver : Resolver) : merge [resolver] = resolver :=
  congrArg mk (List.flatMap_singleton files resolver)

/-- Resolvers may be merged in groups first. -/
theorem merge_map_merge (groups : List (List Resolver)) :
    merge (groups.map merge) = merge groups.flatten := by
  apply congrArg mk
  rw [List.flatMap_map, List.flatten_eq_flatMap, List.flatMap_assoc]
  rfl

/-! ### Lookups -/

/-- A lookup that takes the last declaration that passes a test takes the answer of the last part
that has one. -/
theorem lookup_merge {ask : Resolver → Option β} {declared : SchemaFile → List α}
    {test : α → Bool} {result : α → β}
    (h : ∀ resolver, ask resolver =
      ((resolver.files.flatMap declared).findRev? test).map result)
    (resolvers : List Resolver) : ask (merge resolvers) = resolvers.findSomeRev? ask := by
  rw [h, flatMap_files_merge, findRev?_flatMap, findSomeRev?_map, funext h]

theorem type?_merge (resolvers : List Resolver) (url : DeclUrl) :
    (merge resolvers).type? url = resolvers.findSomeRev? fun part => part.type? url :=
  lookup_merge (fun resolver => resolver.type?_eq_findRev? url) resolvers

theorem fileOf?_merge (resolvers : List Resolver) (url : DeclUrl) :
    (merge resolvers).fileOf? url = resolvers.findSomeRev? fun part => part.fileOf? url :=
  lookup_merge (fun resolver => resolver.fileOf?_eq_findRev? url) resolvers

theorem field?_merge (resolvers : List Resolver) (url : MemberUrl) :
    (merge resolvers).field? url = resolvers.findSomeRev? fun part => part.field? url :=
  lookup_merge (fun resolver => resolver.field?_eq_findRev? url) resolvers

theorem service?_merge (resolvers : List Resolver) (url : DeclUrl) :
    (merge resolvers).service? url = resolvers.findSomeRev? fun part => part.service? url := by
  have h : ∀ resolver : Resolver, resolver.service? url =
      ((resolver.files.flatMap SchemaFile.services).findRev? fun service =>
        service.url == url).map id := by
    intro resolver
    rw [resolver.service?_eq_findRev? url, Option.map_id]
    rfl
  exact lookup_merge h resolvers

theorem fileAtLocation?_merge (resolvers : List Resolver) (location : Location) :
    (merge resolvers).fileAtLocation? location =
      resolvers.findSomeRev? fun part => part.fileAtLocation? location := by
  have h : ∀ resolver : Resolver, resolver.fileAtLocation? location =
      ((resolver.files.flatMap fun file => [file]).findRev? fun file =>
        file.location.fileKey == location.fileKey).map id := by
    intro resolver
    rw [resolver.fileAtLocation?_eq_findRev? location, List.flatMap_singleton', Option.map_id]
    rfl
  exact lookup_merge h resolvers

/-- The first file with a path is that of the first part that has one. -/
theorem fileAt?_merge (resolvers : List Resolver) (path : SourcePath) :
    (merge resolvers).fileAt? path = resolvers.findSome? fun part => part.fileAt? path :=
  List.find?_flatMap

/-! ### Listings -/

theorem allExtensions_merge (resolvers : List Resolver) :
    (merge resolvers).allExtensions = resolvers.flatMap allExtensions :=
  flatMap_files_merge SchemaFile.allExtensions resolvers

theorem extensionsOf_merge (resolvers : List Resolver) (target : DeclUrl) :
    (merge resolvers).extensionsOf target =
      resolvers.flatMap fun part => part.extensionsOf target := by
  rw [extensionsOf_eq_filter, allExtensions_merge, List.filter_flatMap]
  simp only [extensionsOf_eq_filter]

/-- **Merged resolvers.** In a merged resolver, the service, the type, the file of a type, the field
and the file at a location are those of the last part that has one, and there is none if no part has
one. The file with a path is that of the first part that has one. The extend blocks, all of them
and those of one type, are those of the parts one after the other. It does not matter in which
groups resolvers are merged, and a resolver that is merged alone stays as it is.

**Proof sketch.** A lookup takes the last declaration under its key among those of all files
(`type?_eq_findRev?` and the like), and the files of a merged resolver are those of its parts, one
part after the other. -/
theorem merge_determined_by_parts (resolvers : List Resolver) :
    ((∀ url, (merge resolvers).service? url =
        resolvers.findSomeRev? fun part => part.service? url) ∧
      (∀ url, (merge resolvers).type? url = resolvers.findSomeRev? fun part => part.type? url) ∧
      (∀ url, (merge resolvers).fileOf? url =
        resolvers.findSomeRev? fun part => part.fileOf? url) ∧
      (∀ url, (merge resolvers).field? url = resolvers.findSomeRev? fun part => part.field? url) ∧
      ∀ location, (merge resolvers).fileAtLocation? location =
        resolvers.findSomeRev? fun part => part.fileAtLocation? location) ∧
    (∀ path, (merge resolvers).fileAt? path = resolvers.findSome? fun part => part.fileAt? path) ∧
    ((merge resolvers).allExtensions = resolvers.flatMap allExtensions ∧
      ∀ target, (merge resolvers).extensionsOf target =
        resolvers.flatMap fun part => part.extensionsOf target) ∧
    ((∀ groups : List (List Resolver), merge (groups.map merge) = merge groups.flatten) ∧
      (∀ a b c : Resolver, merge [merge [a, b], c] = merge [a, merge [b, c]]) ∧
      ∀ resolver : Resolver, merge [resolver] = resolver) := by
  refine ⟨⟨service?_merge resolvers, type?_merge resolvers, fileOf?_merge resolvers,
    field?_merge resolvers, fileAtLocation?_merge resolvers⟩, fileAt?_merge resolvers,
    ⟨allExtensions_merge resolvers, extensionsOf_merge resolvers⟩, merge_map_merge, ?_,
    merge_singleton⟩
  intro a b c
  calc merge [merge [a, b], c]
      = merge ([[a, b], [c]].map merge) := by
        rw [List.map_cons, List.map_singleton, merge_singleton]
    _ = merge ([[a], [b, c]].map merge) := by
        rw [merge_map_merge, merge_map_merge]
        rfl
    _ = merge [a, merge [b, c]] := by
        rw [List.map_cons, List.map_singleton, merge_singleton]

end Resolver

end SchemaForge
