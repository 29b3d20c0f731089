import SchemaForge.Schema.Field
set_option autoImplicit false

/-!
# Type declarations

A type declaration is a message, an enumeration, or a type that only scopes others. Whatever its
kind it may hold extend blocks and further declarations, so declarations form trees.

## Main definitions

* `SchemaForge.Extend` — a block of extension fields for one type.
* `SchemaForge.TypeHead` — a declaration without the declarations nested in it.
* `SchemaForge.TypeDecl` — the tree of declarations.
* `SchemaForge.TypeDecl.levels` — a forest of declarations level by level.
* `SchemaForge.TypeDecl.allExtensions` — the extend blocks at any depth.

## Main results

* `SchemaForge.TypeDecl.count_flatMap_nested_lt` — the next level of a forest is smaller.
-/

namespace SchemaForge

/-- A block of extension fields for the type `target`. -/
structure Extend where
  target : DeclUrl
  name : String
  fields : List Field
  documentation : String
  location : Location
  deriving DecidableEq, Repr, Inhabited

/-- One constant of an enumeration. -/
structure EnumConstant where
  name : String
  tag : Int32
  options : Options
  documentation : String
  location : Location
  deriving DecidableEq, Repr, Inhabited

/-- What distinguishes the kinds of type declarations. -/
inductive TypeBody where
  /-- A message with its regular fields and its oneof groups. -/
  | message (fields : List Field) (oneOfs : List OneOf)
  /-- An enumeration with its constants. -/
  | enumeration (constants : List EnumConstant)
  /-- A type that only scopes the declarations in it. -/
  | enclosing
  deriving DecidableEq, Repr, Inhabited

/-- A type declaration without the declarations nested in it. -/
structure TypeHead where
  name : String
  documentation : String
  url : DeclUrl
  options : Options
  location : Location
  /-- The extend blocks declared directly inside the type. -/
  extensions : List Extend
  body : TypeBody
  deriving DecidableEq, Repr, Inhabited

/-- A type declaration with the declarations nested one level below it. -/
structure TypeDecl where
  head : TypeHead
  nested : List TypeDecl
  deriving Repr, Inhabited

namespace TypeBody

/-- The regular fields, then the members of each oneof group. -/
def allFields : TypeBody → List Field
  | .message fields oneOfs => fields ++ oneOfs.flatMap OneOf.fields
  | _ => []

end TypeBody

namespace TypeHead

/-- The fields of a message, those of its oneof groups last; no others have fields. -/
def allFields (head : TypeHead) : List Field := head.body.allFields

/-- The field with the given number. -/
def fieldByTag? (head : TypeHead) (tag : Int32) : Option Field :=
  head.allFields.find? fun field => field.tag == tag

/-- The field with the given name. -/
def fieldByName? (head : TypeHead) (name : String) : Option Field :=
  head.allFields.find? fun field => field.name == name

end TypeHead

namespace TypeDecl

mutual

/-- Equality of declarations is decided along the tree. -/
def decEq : (a b : TypeDecl) → Decidable (a = b)
  | ⟨h, s⟩, ⟨k, t⟩ =>
    if hh : h = k then
      match decEqAll s t with
      | isTrue hs => isTrue (by rw [hh, hs])
      | isFalse hs => isFalse (by simp [hs])
    else isFalse (by simp [hh])

/-- Equality of forests is decided one tree after the other. -/
def decEqAll : (a b : List TypeDecl) → Decidable (a = b)
  | [], [] => isTrue rfl
  | [], _ :: _ => isFalse (by simp)
  | _ :: _, [] => isFalse (by simp)
  | a :: s, b :: t =>
    match decEq a b, decEqAll s t with
    | isTrue ha, isTrue hs => isTrue (by rw [ha, hs])
    | isFalse ha, _ => isFalse (by simp [ha])
    | _, isFalse hs => isFalse (by simp [hs])

end

instance : DecidableEq TypeDecl := decEq

/-- The url of the declaration. -/
def url (type : TypeDecl) : DeclUrl := type.head.url

/-- The extend blocks declared directly inside the type. -/
def extensions (type : TypeDecl) : List Extend := type.head.extensions

mutual

/-- The number of declarations in a tree. -/
def count : TypeDecl → Nat
  | ⟨_, nested⟩ => countAll nested + 1

/-- The number of declarations in a forest. -/
def countAll : List TypeDecl → Nat
  | [] => 0
  | type :: types => type.count + countAll types

end

/-- The declarations of two forests are counted together. -/
theorem countAll_append (s t : List TypeDecl) :
    countAll (s ++ t) = countAll s + countAll t := by
  induction s with
  | nil => simp [countAll]
  | cons a s ih => simp [countAll, ih, Nat.add_assoc]

/-- The level below a forest holds less declarations, by one for each tree of the forest. -/
theorem countAll_flatMap_nested (types : List TypeDecl) :
    countAll (types.flatMap nested) + types.length = countAll types := by
  induction types with
  | nil => simp [countAll]
  | cons a types ih =>
    obtain ⟨head, below⟩ := a
    simp only [List.flatMap_cons, countAll_append, List.length_cons, countAll, count, ← ih]
    omega

/-- The level below a forest that is not empty is smaller. -/
theorem count_flatMap_nested_lt (type : TypeDecl) (types : List TypeDecl) :
    countAll ((type :: types).flatMap nested) < countAll (type :: types) := by
  have h := countAll_flatMap_nested (type :: types)
  simp only [List.length_cons] at h
  omega

/-- The declarations of a forest, level by level, each level in document order. -/
def levels : List TypeDecl → List TypeDecl
  | [] => []
  | type :: types => (type :: types) ++ levels ((type :: types).flatMap nested)
  termination_by types => countAll types
  decreasing_by exact count_flatMap_nested_lt type types

/-- The extend blocks of a forest, level by level. -/
def extensionsByLevel : List TypeDecl → List Extend
  | [] => []
  | type :: types =>
    (type :: types).flatMap extensions ++ extensionsByLevel ((type :: types).flatMap nested)
  termination_by types => countAll types
  decreasing_by exact count_flatMap_nested_lt type types

/-- The extend blocks declared in the type or in a declaration at any depth below it. -/
def allExtensions (type : TypeDecl) : List Extend := extensionsByLevel [type]

end TypeDecl

end SchemaForge
