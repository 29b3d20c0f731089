import Std.Data.HashMap
import SchemaForge.Resolver.Position
set_option autoImplicit false

/-!
# Looking up declarations

A resolver answers questions about a list of schema files from indexes that map urls to positions.
Where two declarations share a url, the one written last wins.

## Main definitions

* `SchemaForge.Resolver` — a list of schema files to look up in.
* `SchemaForge.Resolver.typeIndex`, `SchemaForge.Resolver.fieldIndex` and the like — from urls to
  positions.
* `SchemaForge.Resolver.type?`, `SchemaForge.Resolver.field?` and the like — the lookups.
* `SchemaForge.Resolver.merge` — one resolver over the files of several.

## Main results

* `SchemaForge.getElem?_indexOf` — an index gives a key the value of its last entry.
-/

namespace SchemaForge

/-- What an options type can be applied to. -/
inductive OptionsTarget where
  | file
  | message
  | field
  | enumeration
  | enumValue
  | service
  | method
  | oneOf
  deriving DecidableEq, Repr, Inhabited

/-- The word for a target. -/
def OptionsTarget.word : OptionsTarget → String
  | .file => "File"
  | .message => "Message"
  | .field => "Field"
  | .enumeration => "Enum"
  | .enumValue => "EnumValue"
  | .service => "Service"
  | .method => "Method"
  | .oneOf => "OneOf"

/-- All targets. -/
def OptionsTarget.all : List OptionsTarget :=
  [.file, .message, .field, .enumeration, .enumValue, .service, .method, .oneOf]

/-- The target with a word. -/
def OptionsTarget.ofWord? (word : String) : Option OptionsTarget :=
  OptionsTarget.all.find? (·.word == word)

/-- Why a lookup fails. -/
inductive ResolverError where
  /-- The extend blocks of the target are not indexed. -/
  | unsupportedTarget (target : OptionsTarget)
  deriving DecidableEq, Repr, Inhabited

/-- The text of a failure. -/
def ResolverError.message : ResolverError → String
  | .unsupportedTarget target => "extends of " ++ target.word ++ " options are not supported"

/-- The index over the entries: a later entry replaces an earlier one with the same key. -/
def indexOf {κ ν : Type} [BEq κ] [Hashable κ] (entries : List (κ × ν)) : Std.HashMap κ ν :=
  entries.foldl (fun index (key, value) => index.insert key value) ∅

/-- Inserting entries one after the other gives a key its last value, else the one it had. -/
theorem getElem?_foldl_insert {κ ν : Type} [BEq κ] [LawfulBEq κ] [Hashable κ]
    (entries : List (κ × ν)) (index : Std.HashMap κ ν) (key : κ) :
    (entries.foldl (fun index (entry : κ × ν) => index.insert entry.1 entry.2) index)[key]? =
      ((entries.reverse.find? fun entry => entry.1 == key).map Prod.snd).or index[key]? := by
  induction entries generalizing index with
  | nil => simp
  | cons entry entries ih =>
    rw [List.foldl_cons, ih, List.reverse_cons, List.find?_append]
    cases h : entries.reverse.find? fun e => e.1 == key with
    | some e => simp
    | none =>
      rw [Std.HashMap.getElem?_insert]
      by_cases hk : entry.1 == key <;> simp [hk]

/-- The index gives a key the value of its last entry. -/
theorem getElem?_indexOf {κ ν : Type} [BEq κ] [LawfulBEq κ] [Hashable κ]
    (entries : List (κ × ν)) (key : κ) :
    (indexOf entries)[key]? =
      (entries.reverse.find? fun entry => entry.1 == key).map Prod.snd := by
  have h := getElem?_foldl_insert entries ∅ key
  simpa [indexOf] using h

/-- A list of schema files to look up in. -/
structure Resolver where
  /-- The files in the order given. -/
  files : List SchemaFile
  deriving DecidableEq, Repr, Inhabited

namespace Resolver

/-- One resolver over the files of several, one resolver after the other. -/
def merge (resolvers : List Resolver) : Resolver := ⟨resolvers.flatMap files⟩

/-! ### Indexes -/

/-- Services by url: the number of the file and the number in it. -/
def serviceIndex (resolver : Resolver) : Std.HashMap DeclUrl (Nat × Nat) :=
  indexOf (resolver.files.zipIdx.flatMap fun (file, fileIndex) =>
    file.services.zipIdx.map fun (service, index) => (service.url, (fileIndex, index)))

/-- Types at any depth by url. -/
def typeIndex (resolver : Resolver) : Std.HashMap DeclUrl TypePosition :=
  indexOf (resolver.files.zipIdx.flatMap fun (file, fileIndex) =>
    file.typesWithPaths.map fun (path, type) => (type.url, ⟨fileIndex, path⟩))

/-- The entries for the fields of an extend block: the extended type and the qualified name. -/
def extensionEntries (position : ExtendPosition) (block : Extend) :
    List (MemberUrl × FieldPosition) :=
  block.fields.zipIdx.map fun (field, index) =>
    (⟨block.target, field.qualifiedName⟩, .extension position index)

/-- The entries for the fields of a message: the message and the plain name. -/
def memberEntries (position : TypePosition) (type : TypeDecl) :
    List (MemberUrl × FieldPosition) :=
  type.head.allFields.zipIdx.map fun (field, index) =>
    (⟨type.url, field.name⟩, .member position index)

/-- The entries for the fields of a file: those of extend blocks, then those of messages. -/
def fieldEntries (fileIndex : Nat) (file : SchemaFile) : List (MemberUrl × FieldPosition) :=
  (file.extendsWithPlaces.flatMap fun ((owner, index), block) =>
    extensionEntries ⟨fileIndex, owner, index⟩ block) ++
  file.typesWithPaths.flatMap fun (path, type) => memberEntries ⟨fileIndex, path⟩ type

/-- Fields by member url. -/
def fieldIndex (resolver : Resolver) : Std.HashMap MemberUrl FieldPosition :=
  indexOf (resolver.files.zipIdx.flatMap fun (file, fileIndex) => fieldEntries fileIndex file)

/-- Files by the key of their location. -/
def locationIndex (resolver : Resolver) : Std.HashMap String Nat :=
  indexOf (resolver.files.zipIdx.map fun (file, fileIndex) => (file.location.fileKey, fileIndex))

/-- The positions of all extend blocks with the types they extend. -/
def extendEntries (resolver : Resolver) : List (DeclUrl × ExtendPosition) :=
  resolver.files.zipIdx.flatMap fun (file, fileIndex) =>
    file.extendsWithPlaces.map fun ((owner, index), block) =>
      (block.target, ⟨fileIndex, owner, index⟩)

/-- Extend blocks by the type they extend, all of one type in order. -/
def extendIndex (resolver : Resolver) : Std.HashMap DeclUrl (List ExtendPosition) :=
  resolver.extendEntries.foldl
    (fun index (target, position) =>
      index.insert target (index.getD target [] ++ [position])) ∅

/-! ### Lookups -/

/-- The service declared under `url`. -/
def service? (resolver : Resolver) (url : DeclUrl) : Option Service := do
  let (file, index) ← resolver.serviceIndex[url]?
  (← resolver.files[file]?).services[index]?

/-- The type declared under `url`, at any depth. -/
def type? (resolver : Resolver) (url : DeclUrl) : Option TypeDecl := do
  typeAt? resolver.files (← resolver.typeIndex[url]?)

/-- The file that declares the type `url`. -/
def fileOf? (resolver : Resolver) (url : DeclUrl) : Option SchemaFile := do
  resolver.files[(← resolver.typeIndex[url]?).file]?

/-- The field under `url`. -/
def field? (resolver : Resolver) (url : MemberUrl) : Option Field := do
  fieldAt? resolver.files (← resolver.fieldIndex[url]?)

/-- The first file with the given relative path. -/
def fileAt? (resolver : Resolver) (path : SourcePath) : Option SchemaFile :=
  resolver.files.find? fun file => file.location.relativePath == path

/-- The file the location belongs to. -/
def fileAtLocation? (resolver : Resolver) (location : Location) : Option SchemaFile := do
  resolver.files[← resolver.locationIndex[location.fileKey]?]?

/-- All services, once for each url, in order. -/
def allServices (resolver : Resolver) : List Service :=
  let winners := resolver.serviceIndex
  resolver.files.zipIdx.flatMap fun (file, fileIndex) =>
    (file.services.zipIdx.filter fun (service, index) =>
      winners[service.url]? == some (fileIndex, index)).map Prod.fst

/-- All types at any depth, once for each url, in order. -/
def allTypes (resolver : Resolver) : List TypeDecl :=
  let winners := resolver.typeIndex
  resolver.files.zipIdx.flatMap fun (file, fileIndex) =>
    (file.typesWithPaths.filter fun (path, type) =>
      winners[type.url]? == some ⟨fileIndex, path⟩).map Prod.snd

/-- All extend blocks, in order. -/
def allExtensions (resolver : Resolver) : List Extend :=
  resolver.files.flatMap SchemaFile.allExtensions

/-- The extend blocks of the type `target`, in order. -/
def extensionsOf (resolver : Resolver) (target : DeclUrl) : List Extend :=
  (resolver.extendIndex.getD target []).filterMap (extendAt? resolver.files)

/-- The options type of a target whose extend blocks a generator reads. -/
def optionsType? : OptionsTarget → Option DeclUrl
  | .file => some DeclUrl.fileOptions
  | .service => some DeclUrl.serviceOptions
  | .method => some DeclUrl.methodOptions
  | _ => none

/-- The extend blocks that add options to the target. -/
def extensionsFor (resolver : Resolver) (target : OptionsTarget) :
    Except ResolverError (List Extend) :=
  match optionsType? target with
  | some url => .ok (resolver.extensionsOf url)
  | none => .error (.unsupportedTarget target)

end Resolver

end SchemaForge
