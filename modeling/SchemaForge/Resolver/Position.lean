import SchemaForge.Schema.File
set_option autoImplicit false

/-!
# Positions of declarations

A declaration is found again by its position: the number of its file, and the numbers that lead
from the top level down to it.

## Main definitions

* `SchemaForge.TypePosition`, `SchemaForge.ExtendPosition`, `SchemaForge.FieldPosition`.
* `SchemaForge.typeAt?`, `SchemaForge.extendAt?`, `SchemaForge.fieldAt?` — what is at a position.
* `SchemaForge.SchemaFile.typesWithPaths` — the types of a file, level by level, with their paths.
* `SchemaForge.SchemaFile.extendsWithPlaces` — the extend blocks of a file with their places.
-/

namespace SchemaForge

/-- The position of a type: its file, then the numbers through each level of nesting. -/
structure TypePosition where
  file : Nat
  path : List Nat
  deriving DecidableEq, Repr

/-- The position of an extend block: its file, the path of the type around it if there is one, and
its number there. -/
structure ExtendPosition where
  file : Nat
  owner : Option (List Nat)
  index : Nat
  deriving DecidableEq, Repr

/-- The position of a field. -/
inductive FieldPosition where
  /-- A field of an extend block. -/
  | extension (block : ExtendPosition) (index : Nat)
  /-- A field of a message, counted with the members of oneof groups last. -/
  | member (type : TypePosition) (index : Nat)
  deriving DecidableEq, Repr

/-- The type that the path leads to below `type`. -/
def TypeDecl.descend? : TypeDecl → List Nat → Option TypeDecl
  | type, [] => some type
  | type, index :: path => do (← type.nested[index]?).descend? path

/-- The type at a path of a file. -/
def SchemaFile.typeAt? (file : SchemaFile) : List Nat → Option TypeDecl
  | [] => none
  | index :: path => do (← file.types[index]?).descend? path

/-- The extend block at a place of a file. -/
def SchemaFile.extendAt? (file : SchemaFile) (owner : Option (List Nat)) (index : Nat) :
    Option Extend :=
  match owner with
  | none => file.extensions[index]?
  | some path => do (← file.typeAt? path).extensions[index]?

/-- The type at a position. -/
def typeAt? (files : List SchemaFile) (position : TypePosition) : Option TypeDecl := do
  (← files[position.file]?).typeAt? position.path

/-- The extend block at a position. -/
def extendAt? (files : List SchemaFile) (position : ExtendPosition) : Option Extend := do
  (← files[position.file]?).extendAt? position.owner position.index

/-- The field at a position. -/
def fieldAt? (files : List SchemaFile) : FieldPosition → Option Field
  | .extension block index => do (← extendAt? files block).fields[index]?
  | .member type index => do (← typeAt? files type).head.allFields[index]?

/-- The types directly below a type, with their paths. -/
def nestedWithPaths (entry : List Nat × TypeDecl) : List (List Nat × TypeDecl) :=
  entry.2.nested.zipIdx.map fun (type, index) => (entry.1 ++ [index], type)

/-- Without their paths these are the nested types. -/
theorem map_snd_nestedWithPaths (entry : List Nat × TypeDecl) :
    (nestedWithPaths entry).map Prod.snd = entry.2.nested := by
  simp only [nestedWithPaths, List.map_map]
  exact List.zipIdx_map_fst 0 entry.2.nested

/-- The next level without its paths is the next level of the types. -/
theorem map_snd_flatMap_nestedWithPaths (entries : List (List Nat × TypeDecl)) :
    (entries.flatMap nestedWithPaths).map Prod.snd =
      (entries.map Prod.snd).flatMap TypeDecl.nested := by
  induction entries with
  | nil => rfl
  | cons entry entries ih =>
    simp only [List.flatMap_cons, List.map_append, List.map_cons, map_snd_nestedWithPaths, ih]

/-- Types with their paths, level by level. -/
def levelsWithPaths : List (List Nat × TypeDecl) → List (List Nat × TypeDecl)
  | [] => []
  | entry :: entries =>
    (entry :: entries) ++ levelsWithPaths ((entry :: entries).flatMap nestedWithPaths)
  termination_by entries => TypeDecl.countAll (entries.map Prod.snd)
  decreasing_by
    rw [map_snd_flatMap_nestedWithPaths]
    exact TypeDecl.count_flatMap_nested_lt entry.2 (entries.map Prod.snd)

namespace SchemaFile

/-- The types of the file at any depth, level by level, with their paths. -/
def typesWithPaths (file : SchemaFile) : List (List Nat × TypeDecl) :=
  levelsWithPaths (file.types.zipIdx.map fun (type, index) => ([index], type))

/-- Extend blocks with their numbers, below the given owner. -/
def placesIn (owner : Option (List Nat)) (blocks : List Extend) :
    List ((Option (List Nat) × Nat) × Extend) :=
  blocks.zipIdx.map fun (block, index) => ((owner, index), block)

/-- The extend blocks of the file, then those of its types, with their places. -/
def extendsWithPlaces (file : SchemaFile) : List ((Option (List Nat) × Nat) × Extend) :=
  placesIn none file.extensions ++
    file.typesWithPaths.flatMap fun (path, type) => placesIn (some path) type.extensions

end SchemaFile

end SchemaForge
