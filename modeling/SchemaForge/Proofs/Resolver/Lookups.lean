import SchemaForge.Proofs.Resolver.Indexes
import SchemaForge.Proofs.Resolver.Positions
import SchemaForge.Proofs.Schema.Preorder
set_option autoImplicit false

/-!
# Lookups are searches

The types, services and fields of a schema are found as if all its files were searched one after the
other, and the last declaration under the url were taken. The positions in the indexes are those of
the declarations that are found.

## Main definitions

* `SchemaForge.declaredTypes` — the types of some files at any depth, each with its file.
* `SchemaForge.SchemaFile.keyedFields` — the fields of a file with the urls they are found under.

## Main results

* `SchemaForge.Resolver.leads_typeEntries`, `SchemaForge.Resolver.leads_serviceEntries`,
  `SchemaForge.Resolver.leads_fieldEntries` — positions lead to the declarations in order.
* `SchemaForge.Resolver.last_type_and_service_found` — types, their files, and services.
* `SchemaForge.Resolver.last_field_found` — fields.
-/

namespace SchemaForge

/-! ### What is declared -/

/-- The types of some files at any depth, each with its file. -/
def declaredTypes (files : List SchemaFile) : List (SchemaFile × TypeDecl) :=
  files.flatMap fun file => file.allTypes.map fun type => (file, type)

theorem map_snd_declaredTypes (files : List SchemaFile) :
    (declaredTypes files).map Prod.snd = files.flatMap SchemaFile.allTypes := by
  rw [declaredTypes, List.map_flatMap]
  refine List.flatMap_congr fun file _ => ?_
  rw [List.map_map]
  exact List.map_id _

theorem mem_declaredTypes {files : List SchemaFile} {declared : SchemaFile × TypeDecl} :
    declared ∈ declaredTypes files ↔ declared.1 ∈ files ∧ declared.2 ∈ declared.1.allTypes := by
  obtain ⟨file, type⟩ := declared
  simp only [declaredTypes, List.mem_flatMap, List.mem_map, Prod.mk.injEq]
  constructor
  · rintro ⟨_, hfile, _, htype, rfl, rfl⟩
    exact ⟨hfile, htype⟩
  · rintro ⟨hfile, htype⟩
    exact ⟨file, hfile, type, htype, rfl, rfl⟩

/-- The fields of a block with the urls they are found under: the type that is extended, and the
qualified name. -/
def Extend.keyedFields (block : Extend) : List (MemberUrl × Field) :=
  block.fields.map fun field => (⟨block.target, field.qualifiedName⟩, field)

/-- The fields of a message with the urls they are found under: the message, and the plain name. -/
def TypeDecl.keyedFields (type : TypeDecl) : List (MemberUrl × Field) :=
  type.head.allFields.map fun field => (⟨type.url, field.name⟩, field)

/-- The fields of all extend blocks of a file. -/
def SchemaFile.extensionFields (file : SchemaFile) : List (MemberUrl × Field) :=
  file.allExtensions.flatMap Extend.keyedFields

/-- The fields of all messages of a file. -/
def SchemaFile.messageFields (file : SchemaFile) : List (MemberUrl × Field) :=
  file.allTypes.flatMap TypeDecl.keyedFields

/-- The fields of a file with the urls they are found under. -/
def SchemaFile.keyedFields (file : SchemaFile) : List (MemberUrl × Field) :=
  file.extensionFields ++ file.messageFields

theorem SchemaFile.mem_keyedFields {file : SchemaFile} {keyed : MemberUrl × Field} :
    keyed ∈ file.keyedFields ↔
      (∃ block ∈ file.allExtensions, ∃ field ∈ block.fields,
        (⟨block.target, field.qualifiedName⟩, field) = keyed) ∨
      ∃ type ∈ file.allTypes, ∃ field ∈ type.head.allFields,
        (⟨type.url, field.name⟩, field) = keyed := by
  simp only [keyedFields, extensionFields, messageFields, Extend.keyedFields,
    TypeDecl.keyedFields, List.mem_append, List.mem_flatMap, List.mem_map]

/-! ### What is at a position -/

/-- The type at a position, with its file. -/
def declaredTypeAt? (files : List SchemaFile) (position : TypePosition) :
    Option (SchemaFile × TypeDecl) := do
  let file ← files[position.file]?
  return (file, ← file.typeAt? position.path)

/-- The service at a position. -/
def serviceAt? (files : List SchemaFile) (position : Nat × Nat) : Option Service := do
  (← files[position.1]?).services[position.2]?

/-- The field at a position, with the url it is found under. -/
def keyedFieldAt? (files : List SchemaFile) : FieldPosition → Option (MemberUrl × Field)
  | .extension place index => do
    let block ← extendAt? files place
    let field ← block.fields[index]?
    return (⟨block.target, field.qualifiedName⟩, field)
  | .member position index => do
    let type ← typeAt? files position
    let field ← type.head.allFields[index]?
    return (⟨type.url, field.name⟩, field)

section Positions

variable {files : List SchemaFile}

theorem declaredTypeAt?_eq_some_iff {position : TypePosition} {declared : SchemaFile × TypeDecl} :
    declaredTypeAt? files position = some declared ↔
      files[position.file]? = some declared.1 ∧
        declared.1.typeAt? position.path = some declared.2 := by
  obtain ⟨file, type⟩ := declared
  simp only [declaredTypeAt?, Option.bind_eq_bind, Option.bind_eq_some_iff, Option.pure_def,
    Option.some.injEq, Prod.mk.injEq]
  constructor
  · rintro ⟨_, hfile, _, htype, rfl, rfl⟩
    exact ⟨hfile, htype⟩
  · rintro ⟨hfile, htype⟩
    exact ⟨file, hfile, type, htype, rfl, rfl⟩

/-- Where a type is with its file, the type is. -/
theorem typeAt?_of_declaredTypeAt? {position : TypePosition} {declared : SchemaFile × TypeDecl}
    (h : declaredTypeAt? files position = some declared) :
    typeAt? files position = some declared.2 := by
  obtain ⟨hfile, htype⟩ := declaredTypeAt?_eq_some_iff.1 h
  simp only [typeAt?, hfile]
  exact htype

/-- A field of an extend block is under the extended type and its qualified name. -/
theorem keyedFieldAt?_extension_eq_some_iff {place : ExtendPosition} {index : Nat}
    {keyed : MemberUrl × Field} :
    keyedFieldAt? files (.extension place index) = some keyed ↔
      ∃ block field, extendAt? files place = some block ∧ block.fields[index]? = some field ∧
        keyed = (⟨block.target, field.qualifiedName⟩, field) := by
  simp only [keyedFieldAt?, Option.bind_eq_bind, Option.bind_eq_some_iff, Option.pure_def,
    Option.some.injEq]
  constructor
  · rintro ⟨block, hblock, field, hfield, rfl⟩
    exact ⟨block, field, hblock, hfield, rfl⟩
  · rintro ⟨block, field, hblock, hfield, rfl⟩
    exact ⟨block, hblock, field, hfield, rfl⟩

/-- A field of a message is under the message and its name. -/
theorem keyedFieldAt?_member_eq_some_iff {position : TypePosition} {index : Nat}
    {keyed : MemberUrl × Field} :
    keyedFieldAt? files (.member position index) = some keyed ↔
      ∃ type field, typeAt? files position = some type ∧
        type.head.allFields[index]? = some field ∧ keyed = (⟨type.url, field.name⟩, field) := by
  simp only [keyedFieldAt?, Option.bind_eq_bind, Option.bind_eq_some_iff, Option.pure_def,
    Option.some.injEq]
  constructor
  · rintro ⟨type, htype, field, hfield, rfl⟩
    exact ⟨type, field, htype, hfield, rfl⟩
  · rintro ⟨type, field, htype, hfield, rfl⟩
    exact ⟨type, htype, field, hfield, rfl⟩

/-- Where a field is with its url, the field is. -/
theorem fieldAt?_of_keyedFieldAt? {position : FieldPosition} {keyed : MemberUrl × Field}
    (h : keyedFieldAt? files position = some keyed) : fieldAt? files position = some keyed.2 := by
  cases position with
  | extension place index =>
    obtain ⟨block, field, hblock, hfield, rfl⟩ := keyedFieldAt?_extension_eq_some_iff.1 h
    simp only [fieldAt?, hblock]
    exact hfield
  | member position index =>
    obtain ⟨type, field, htype, hfield, rfl⟩ := keyedFieldAt?_member_eq_some_iff.1 h
    simp only [fieldAt?, htype]
    exact hfield

end Positions

namespace Resolver

/-! ### The entries of the indexes -/

/-- The entries for types lead to the types and their files. -/
theorem leads_typeEntries (files : List SchemaFile) :
    Leads (declaredTypeAt? files) (fun declared => declared.2.url) id
      (files.zipIdx.flatMap fun (file, fileIndex) =>
        file.typesWithPaths.map fun (path, type) => (type.url, ⟨fileIndex, path⟩))
      (declaredTypes files) := by
  apply Leads.flatMap_zipIdx
  intro file fileIndex hfile
  rw [← SchemaFile.map_snd_typesWithPaths, List.map_map]
  apply Leads.map
  rintro ⟨path, type⟩ htype
  refine ⟨rfl, declaredTypeAt?_eq_some_iff.2 ⟨hfile, ?_⟩⟩
  exact SchemaFile.typeAt?_of_mem_typesWithPaths htype

/-- The entries for services lead to the services. -/
theorem leads_serviceEntries (files : List SchemaFile) :
    Leads (serviceAt? files) Service.url id
      (files.zipIdx.flatMap fun (file, fileIndex) =>
        file.services.zipIdx.map fun (service, index) => (service.url, (fileIndex, index)))
      (files.flatMap SchemaFile.services) := by
  apply Leads.flatMap_zipIdx
  intro file fileIndex hfile
  rw [← List.map_id file.services]
  apply Leads.map_zipIdx
  intro service index hservice
  refine ⟨rfl, ?_⟩
  simp only [serviceAt?, hfile]
  exact hservice

/-- The entries for the fields of an extend block lead to the fields. -/
theorem leads_extensionEntries {files : List SchemaFile} {place : ExtendPosition} {block : Extend}
    (hblock : extendAt? files place = some block) :
    Leads (keyedFieldAt? files) Prod.fst id (extensionEntries place block) block.keyedFields := by
  apply Leads.map_zipIdx
  intro field index hfield
  refine ⟨rfl, ?_⟩
  rw [keyedFieldAt?_extension_eq_some_iff]
  exact ⟨block, field, hblock, hfield, rfl⟩

/-- The entries for the fields of a message lead to the fields. -/
theorem leads_memberEntries {files : List SchemaFile} {position : TypePosition} {type : TypeDecl}
    (htype : typeAt? files position = some type) :
    Leads (keyedFieldAt? files) Prod.fst id (memberEntries position type) type.keyedFields := by
  apply Leads.map_zipIdx
  intro field index hfield
  refine ⟨rfl, ?_⟩
  rw [keyedFieldAt?_member_eq_some_iff]
  exact ⟨type, field, htype, hfield, rfl⟩

/-- The entries for the fields of a file lead to the fields. -/
theorem leads_entriesOfFile {files : List SchemaFile} {file : SchemaFile} {fileIndex : Nat}
    (hfile : files[fileIndex]? = some file) :
    Leads (keyedFieldAt? files) Prod.fst id (fieldEntries fileIndex file) file.keyedFields := by
  rw [fieldEntries, SchemaFile.keyedFields, SchemaFile.extensionFields, SchemaFile.messageFields,
    ← SchemaFile.map_snd_extendsWithPlaces, ← SchemaFile.map_snd_typesWithPaths, List.flatMap_map,
    List.flatMap_map]
  apply Leads.append
  · apply Leads.flatMap
    rintro ⟨⟨owner, index⟩, block⟩ hplace
    apply leads_extensionEntries
    simp only [extendAt?, hfile]
    exact SchemaFile.extendAt?_of_mem_extendsWithPlaces hplace
  · apply Leads.flatMap
    rintro ⟨path, type⟩ hpath
    apply leads_memberEntries
    simp only [typeAt?, hfile]
    exact SchemaFile.typeAt?_of_mem_typesWithPaths hpath

/-- The entries for fields lead to the fields. -/
theorem leads_fieldEntries (files : List SchemaFile) :
    Leads (keyedFieldAt? files) Prod.fst id
      (files.zipIdx.flatMap fun (file, fileIndex) => fieldEntries fileIndex file)
      (files.flatMap SchemaFile.keyedFields) := by
  apply Leads.flatMap_zipIdx
  intro file fileIndex hfile
  exact leads_entriesOfFile hfile

/-! ### The lookups -/

/-- A type is the last one with its url. -/
theorem type?_eq_findRev? (resolver : Resolver) (url : DeclUrl) :
    resolver.type? url = ((declaredTypes resolver.files).findRev? fun declared =>
      declared.2.url == url).map Prod.snd :=
  ((leads_typeEntries resolver.files).imp fun _ _ => typeAt?_of_declaredTypeAt?).lookup url

theorem type?_eq_findRev?_allTypes (resolver : Resolver) (url : DeclUrl) :
    resolver.type? url =
      (resolver.files.flatMap SchemaFile.allTypes).findRev? fun type => type.url == url := by
  rw [type?_eq_findRev?, ← map_snd_declaredTypes, findRev?_map]

/-- The file of a type is the one with this type. -/
theorem fileOf?_eq_findRev? (resolver : Resolver) (url : DeclUrl) :
    resolver.fileOf? url = ((declaredTypes resolver.files).findRev? fun declared =>
      declared.2.url == url).map Prod.fst := by
  have hfile : ∀ (position : TypePosition) (declared : SchemaFile × TypeDecl),
      declaredTypeAt? resolver.files position = some declared →
        resolver.files[position.file]? = some declared.1 :=
    fun _ _ h => (declaredTypeAt?_eq_some_iff.1 h).1
  exact ((leads_typeEntries resolver.files).imp hfile).lookup url

/-- A service is the last one with its url. -/
theorem service?_eq_findRev? (resolver : Resolver) (url : DeclUrl) :
    resolver.service? url = (resolver.files.flatMap SchemaFile.services).findRev? fun service =>
      service.url == url := by
  have h := (leads_serviceEntries resolver.files).lookup url
  rw [Option.map_id] at h
  exact h

/-- A field is the last one with its url. -/
theorem field?_eq_findRev? (resolver : Resolver) (url : MemberUrl) :
    resolver.field? url = ((resolver.files.flatMap SchemaFile.keyedFields).findRev? fun keyed =>
      keyed.1 == url).map Prod.snd :=
  ((leads_fieldEntries resolver.files).imp fun _ _ => fieldAt?_of_keyedFieldAt?).lookup url

/-- No type is found exactly if none at any depth has the url. -/
theorem type?_eq_none_iff (resolver : Resolver) (url : DeclUrl) :
    resolver.type? url = none ↔
      ∀ file ∈ resolver.files, ∀ type ∈ TypeDecl.preorderAll file.types, type.url ≠ url := by
  rw [type?_eq_findRev?, Option.map_eq_none_iff, findRev?_eq_none_iff]
  simp only [mem_declaredTypes, beq_eq_false_iff_ne]
  constructor
  · intro h file hfile type htype
    exact h (file, type) ⟨hfile, (TypeDecl.levels_perm file.types).mem_iff.2 htype⟩
  · rintro h ⟨file, type⟩ ⟨hfile, htype⟩
    exact h file hfile type ((TypeDecl.levels_perm file.types).mem_iff.1 htype)

/-- **Types and services.** The type under a url is the last one with this url in the sequence of
the types of all files, level by level in each of them, and its file is the one it stands in there.
No type is found exactly if no type at any depth has the url. The service under a url is the last
one with this url. A position in an index leads to the declaration that is found.

**Proof sketch.** The positions of the entries lead to the declarations one after the other, and the
index gives a url the position of its last entry. -/
theorem last_type_and_service_found (resolver : Resolver) (url : DeclUrl) :
    let declared := resolver.files.flatMap fun file => file.allTypes.map fun type => (file, type)
    let last := declared.findRev? fun entry => entry.2.url == url
    (resolver.type? url =
        (resolver.files.flatMap SchemaFile.allTypes).findRev? fun type => type.url == url) ∧
      resolver.type? url = last.map Prod.snd ∧
      resolver.fileOf? url = last.map Prod.fst ∧
      (resolver.type? url = none ↔
        ∀ file ∈ resolver.files, ∀ type ∈ TypeDecl.preorderAll file.types, type.url ≠ url) ∧
      (resolver.fileOf? url = none ↔ resolver.type? url = none) ∧
      (resolver.service? url =
        (resolver.files.flatMap SchemaFile.services).findRev? fun service => service.url == url) ∧
      (∀ position, resolver.typeIndex[url]? = some position →
        ∃ file type, last = some (file, type) ∧ resolver.files[position.file]? = some file ∧
          file.typeAt? position.path = some type) ∧
      ∀ position, resolver.serviceIndex[url]? = some position →
        ∃ file service, resolver.service? url = some service ∧
          resolver.files[position.1]? = some file ∧ file.services[position.2]? = some service := by
  intro declared last
  have htype : resolver.type? url = last.map Prod.snd := resolver.type?_eq_findRev? url
  have hfile : resolver.fileOf? url = last.map Prod.fst := resolver.fileOf?_eq_findRev? url
  refine ⟨resolver.type?_eq_findRev?_allTypes url, htype, hfile, resolver.type?_eq_none_iff url,
    ?_, resolver.service?_eq_findRev? url, ?_, ?_⟩
  · rw [htype, hfile, Option.map_eq_none_iff, Option.map_eq_none_iff]
  · intro position hposition
    obtain ⟨⟨file, type⟩, -, hlast, hat⟩ :=
      (leads_typeEntries resolver.files).exists_of_getElem? hposition
    obtain ⟨hfile, htype⟩ := declaredTypeAt?_eq_some_iff.1 hat
    exact ⟨file, type, hlast, hfile, htype⟩
  · intro position hposition
    obtain ⟨service, -, hlast, hat⟩ :=
      (leads_serviceEntries resolver.files).exists_of_getElem? hposition
    obtain ⟨file, hfile, hservice⟩ := Option.bind_eq_some_iff.1 hat
    exact ⟨file, service, (resolver.service?_eq_findRev? url).trans hlast, hfile, hservice⟩

end Resolver

end SchemaForge
