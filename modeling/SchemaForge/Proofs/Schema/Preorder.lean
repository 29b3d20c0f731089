import SchemaForge.Schema.TypeDecl
set_option autoImplicit false

/-!
# The declarations of a forest, each before those nested in it

The declarations of a forest are listed level by level where they are looked up, and each before
those nested in it where they are worked on. Both lists hold the same declarations.

## Main definitions

* `SchemaForge.TypeDecl.preorder` — a declaration and those nested in it.
* `SchemaForge.TypeDecl.preorderAll` — the declarations of a forest.

## Main results

* `SchemaForge.TypeDecl.levels_perm` — the levels hold the same declarations.
-/

namespace SchemaForge.TypeDecl

mutual

/-- The declaration, then those nested in it at any depth. -/
def preorder : TypeDecl → List TypeDecl
  | ⟨head, nested⟩ => ⟨head, nested⟩ :: preorderAll nested

/-- The declarations of a forest, tree by tree. -/
def preorderAll : List TypeDecl → List TypeDecl
  | [] => []
  | type :: types => type.preorder ++ preorderAll types

end

theorem preorder_eq (type : TypeDecl) : type.preorder = type :: preorderAll type.nested := by
  obtain ⟨head, nested⟩ := type
  rw [preorder]

@[simp] theorem preorderAll_append (types more : List TypeDecl) :
    preorderAll (types ++ more) = preorderAll types ++ preorderAll more := by
  induction types with
  | nil => rfl
  | cons type types ih => simp [preorderAll, ih]

/-- The declarations of a forest are its trees and the declarations of the next level. -/
theorem preorderAll_perm (types : List TypeDecl) :
    (preorderAll types).Perm (types ++ preorderAll (types.flatMap nested)) := by
  induction types with
  | nil => exact .refl _
  | cons type types ih =>
    rw [preorderAll, preorder_eq, List.flatMap_cons, preorderAll_append, List.cons_append,
      List.cons_append]
    refine .cons type ?_
    calc preorderAll type.nested ++ preorderAll types
        |>.Perm (preorderAll type.nested ++ (types ++ preorderAll (types.flatMap nested))) :=
          .append_left _ ih
      _ |>.Perm (types ++ (preorderAll type.nested ++ preorderAll (types.flatMap nested))) :=
          List.perm_append_comm_assoc _ _ _

/-- **Levels.** Level by level a forest holds the same declarations. -/
theorem levels_perm (types : List TypeDecl) : (levels types).Perm (preorderAll types) := by
  fun_induction levels types with
  | case1 => exact .refl _
  | case2 type types ih =>
    exact (ih.append_left (type :: types)).trans (preorderAll_perm (type :: types)).symm

end SchemaForge.TypeDecl
