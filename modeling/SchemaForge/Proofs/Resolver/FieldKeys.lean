import SchemaForge.Proofs.Resolver.Lookups
set_option autoImplicit false

/-!
# Which fields are found

A resolver finds a field under a member url if and only if one of its files declares a field that is
looked up under this url: a field of a message under its name, a field of an extend block under its
qualified name. Where several are, one of them is found.

## Main definitions

* `SchemaForge.SchemaFile.fieldKeys` — the urls under which the fields of a file are looked up.

## Main results

* `SchemaForge.Resolver.exists_of_field?` — the field that is found is declared under the url.
* `SchemaForge.Resolver.isSome_field?_iff` — a field is found where one is declared.
-/

namespace SchemaForge

/-- The urls under which the fields of an extend block are looked up. -/
def Extend.fieldKeys (block : Extend) : List MemberUrl :=
  block.fields.map fun field => ⟨block.target, field.qualifiedName⟩

/-- The urls under which the fields of the message `owner` are looked up. -/
def TypeBody.fieldKeys (owner : DeclUrl) (body : TypeBody) : List MemberUrl :=
  body.allFields.map fun field => ⟨owner, field.name⟩

/-- The urls of the fields that a type declares, without the types nested in it. -/
def TypeDecl.ownKeys (type : TypeDecl) : List MemberUrl :=
  type.head.body.fieldKeys type.url ++ type.extensions.flatMap Extend.fieldKeys

/-- The urls of the fields that a forest of types declares. -/
def TypeDecl.keysOfAll (types : List TypeDecl) : List MemberUrl :=
  (TypeDecl.preorderAll types).flatMap TypeDecl.ownKeys

/-- The urls under which the fields of a file are looked up. -/
def SchemaFile.fieldKeys (file : SchemaFile) : List MemberUrl :=
  file.extensions.flatMap Extend.fieldKeys ++ TypeDecl.keysOfAll file.types

/-- The urls of the fields of a block. -/
theorem Extend.map_fst_keyedFields (block : Extend) :
    block.keyedFields.map Prod.fst = block.fieldKeys := by
  rw [keyedFields, List.map_map]
  rfl

/-- The urls of the fields of a message. -/
theorem TypeDecl.map_fst_keyedFields (type : TypeDecl) :
    type.keyedFields.map Prod.fst = type.head.body.fieldKeys type.url := by
  rw [keyedFields, List.map_map]
  rfl

/-- The fields of a file are found under its urls. -/
theorem SchemaFile.mem_map_fst_keyedFields (file : SchemaFile) (url : MemberUrl) :
    url ∈ file.keyedFields.map Prod.fst ↔ url ∈ file.fieldKeys := by
  have htypes : ∀ type, type ∈ file.allTypes ↔ type ∈ TypeDecl.preorderAll file.types := fun _ =>
    (TypeDecl.levels_perm file.types).mem_iff
  rw [keyedFields, extensionFields, messageFields, List.map_append, List.map_flatMap,
    List.map_flatMap, fieldKeys, TypeDecl.keysOfAll, allExtensions, List.flatMap_append]
  simp only [Extend.map_fst_keyedFields, TypeDecl.map_fst_keyedFields, List.mem_append,
    List.mem_flatMap, htypes, TypeDecl.ownKeys]
  constructor
  · rintro ((h | ⟨block, ⟨type, htype, hblock⟩, hurl⟩) | ⟨type, htype, hurl⟩)
    · exact .inl h
    · exact .inr ⟨type, htype, .inr ⟨block, hblock, hurl⟩⟩
    · exact .inr ⟨type, htype, .inl hurl⟩
  · rintro (h | ⟨type, htype, hurl | ⟨block, hblock, hurl⟩⟩)
    · exact .inl (.inl h)
    · exact .inr ⟨type, htype, hurl⟩
    · exact .inl (.inr ⟨block, ⟨type, htype, hblock⟩, hurl⟩)

namespace Resolver

/-- A field that is found is declared in one of the files under the url. -/
theorem exists_of_field? {resolver : Resolver} {url : MemberUrl} {field : Field}
    (h : resolver.field? url = some field) :
    ∃ file ∈ resolver.files, (url, field) ∈ file.keyedFields := by
  rw [field?_eq_findRev?] at h
  obtain ⟨keyed, hlast, rfl⟩ := Option.map_eq_some_iff.1 h
  rw [List.findRev?_eq_find?_reverse] at hlast
  obtain ⟨file, hfile, hkeyed⟩ :=
    List.mem_flatMap.1 (List.mem_reverse.1 (List.mem_of_find?_eq_some hlast))
  have hurl : keyed.1 = url := by simpa using List.find?_some hlast
  exact ⟨file, hfile, hurl ▸ hkeyed⟩

/-- **Lookup.** A field is found under a url if and only if a file declares one that is looked up
under this url.

**Proof sketch.** What is found is the last field that is declared under the url. -/
theorem isSome_field?_iff (resolver : Resolver) (url : MemberUrl) :
    (resolver.field? url).isSome ↔ ∃ file ∈ resolver.files, url ∈ file.fieldKeys := by
  simp only [← SchemaFile.mem_map_fst_keyedFields]
  constructor
  · intro h
    obtain ⟨field, hfield⟩ := Option.isSome_iff_exists.1 h
    obtain ⟨file, hfile, hkeyed⟩ := exists_of_field? hfield
    exact ⟨file, hfile, List.mem_map_of_mem hkeyed⟩
  · rintro ⟨file, hfile, hurl⟩
    obtain ⟨keyed, hkeyed, hkey⟩ := List.mem_map.1 hurl
    rw [field?_eq_findRev?, Option.isSome_map]
    rcases findRev?_key_cases Prod.fst (resolver.files.flatMap SchemaFile.keyedFields) url with
      ⟨last, -, -, hlast⟩ | ⟨hnone, -⟩
    · rw [hlast]
      rfl
    · exact absurd ⟨keyed, List.mem_flatMap.2 ⟨file, hfile, hkeyed⟩, hkey⟩ hnone

end Resolver

end SchemaForge
