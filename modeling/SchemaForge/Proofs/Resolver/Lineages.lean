import SchemaForge.Proofs.Resolver.Composition
import SchemaForge.Proofs.Resolver.Walk
set_option autoImplicit false

/-!
# Nodes with those above them

A filter may cut a node because of the node itself or because of one that it is nested in. So what
it keeps is seen best where each node is listed with those above it: kept are the lists all members
of which are to be kept.

## Main definitions

* `SchemaForge.Forest.lineages` — the labels of a forest, each with those above it.
* `SchemaForge.Resolver.trees` — the nodes of a schema as a forest.
* `SchemaForge.Resolver.lineages` — the nodes of a schema, each with those that it is nested in.

## Main results

* `SchemaForge.Forest.lineages_remains_mark` — the lineages that are kept.
* `SchemaForge.Resolver.head?_lineages`, `SchemaForge.Resolver.length_lineages` — there is one for
  each node.
* `SchemaForge.Resolver.lineages_filterBy` — the lineages of what a filter keeps.
-/

namespace SchemaForge

/-! ### Lineages of a forest -/

namespace Forest

variable {α β : Type}

/-- The labels of a forest below `above`, each in front of those above it, the nearest first. -/
def lineagesBelow (above : List α) : Forest α → List (List α)
  | nil => []
  | node label below rest =>
    (label :: above) :: (below.lineagesBelow (label :: above) ++ rest.lineagesBelow above)

/-- The labels of a forest, each in front of those above it, the nearest first. -/
def lineages (f : Forest α) : List (List α) := f.lineagesBelow []

/-- The lineages begin with the labels, each before those below it. -/
theorem head?_lineagesBelow (above : List α) (f : Forest α) :
    (f.lineagesBelow above).map List.head? = f.labels.map some := by
  induction f generalizing above with
  | nil => rfl
  | node label below rest ihBelow ihRest =>
    rw [lineagesBelow, labels, List.map_cons, List.map_cons, List.map_append, List.map_append,
      ihBelow, ihRest, List.head?_cons]

/-- What is above a forest is in all its lineages. -/
theorem suffix_of_mem_lineagesBelow {above lineage : List α} {f : Forest α}
    (h : lineage ∈ f.lineagesBelow above) : above <:+ lineage := by
  induction f generalizing above with
  | nil => cases h
  | node label below rest ihBelow ihRest =>
    rw [lineagesBelow, List.mem_cons, List.mem_append] at h
    rcases h with rfl | h | h
    · exact List.suffix_cons label above
    · exact (List.suffix_cons label above).trans (ihBelow h)
    · exact ihRest h

/-- Other labels give other lineages. -/
theorem lineagesBelow_map (change : α → β) (above : List α) (f : Forest α) :
    (f.map change).lineagesBelow (above.map change) =
      (f.lineagesBelow above).map (List.map change) := by
  induction f generalizing above with
  | nil => rfl
  | node label below rest ihBelow ihRest =>
    rw [map, lineagesBelow, lineagesBelow, List.map_cons, List.map_append, ← List.map_cons,
      ihBelow, ihRest]

theorem lineages_map (change : α → β) (f : Forest α) :
    (f.map change).lineages = f.lineages.map (List.map change) :=
  lineagesBelow_map change [] f

variable {keep : α → Bool}

/-- Below a label that is not to be kept nothing is kept. -/
theorem filter_lineagesBelow_of_rejected {label : α} (h : keep label = false) (above : List α)
    (f : Forest α) : (f.lineagesBelow (label :: above)).filter (List.all · keep) = [] := by
  rw [List.filter_eq_nil_iff]
  intro lineage hmem hall
  have hlabel : label ∈ lineage := (suffix_of_mem_lineagesBelow hmem).subset List.mem_cons_self
  exact Bool.eq_false_iff.1 h (List.all_eq_true.1 hall label hlabel)

/-- Of a forest below labels that are to be kept, the lineages stay that hold no other labels.

**Proof sketch.** Induction on the forest. If the first root is to be kept it joins the labels above
its trees. If not, it is cut with everything below it, and it is in all lineages that are lost. -/
theorem lineagesBelow_remains_mark (f : Forest α) {above : List α}
    (habove : above.all keep = true) :
    (f.mark keep).remains.lineagesBelow above =
      (f.lineagesBelow above).filter (List.all · keep) := by
  induction f generalizing above with
  | nil => rfl
  | node label below rest ihBelow ihRest =>
    cases hkeep : keep label with
    | true =>
      have hall : (label :: above).all keep = true := by rw [List.all_cons, hkeep, habove]; rfl
      rw [mark_of_kept hkeep, Cutting.remains, lineagesBelow, lineagesBelow,
        List.filter_cons, if_pos hall, List.filter_append, ihBelow hall, ihRest habove]
    | false =>
      have hall : ¬ (label :: above).all keep = true := by
        rw [List.all_cons, hkeep, Bool.false_and]
        exact Bool.false_ne_true
      rw [mark_of_rejected hkeep, Cutting.remains, lineagesBelow, List.filter_cons,
        if_neg hall, List.filter_append, filter_lineagesBelow_of_rejected hkeep, List.nil_append,
        ihRest habove]

/-- **Kept lineages.** When the nodes are cut that are not to be kept, the lineages stay all labels
of which are to be kept. -/
theorem lineages_remains_mark (f : Forest α) :
    (f.mark keep).remains.lineages = f.lineages.filter (List.all · keep) :=
  lineagesBelow_remains_mark f rfl

end Forest

/-! ### Lineages of a schema -/

namespace Resolver

variable (resolver : Resolver)

/-- The nodes of a schema as a forest. -/
def trees : Forest Node := resolver.forest.map Site.node

/-- The nodes of a schema, each in front of those that it is nested in, the nearest first. -/
def lineages : List (List Node) := resolver.trees.lineages

/-- The lineages begin with the nodes of the files. -/
theorem head?_lineages : resolver.lineages.map List.head? =
    (resolver.files.flatMap SchemaFile.nodes).map some := by
  rw [lineages, Forest.lineages, Forest.head?_lineagesBelow, trees, Forest.labels_map,
    ← resolver.nodes_forest]
  rfl

/-- There is one lineage for each node that is counted. -/
theorem length_lineages : resolver.lineages.length = countNodes resolver.files := by
  have hheads := congrArg List.length resolver.head?_lineages
  rw [List.length_map, List.length_map] at hheads
  rw [hheads, countNodes_eq_length]

/-- Without what is below it, each node that is kept is what it was, apart from the options of
fields that are noted. -/
theorem map_emptied_trees_filterBy (keep : Node → Bool) :
    (resolver.filterBy keep).trees.map Node.emptied =
      (resolver.trees.mark keep).remains.map fun node =>
        node.emptied.mapOptions (Options.without (resolver.notes keep)) := by
  have houtline := congrArg (Forest.map Site.node) (resolver.outline_filterBy keep)
  simp only [Forest.outline, Forest.mapOptions, Forest.map_map] at houtline
  have hmark : (resolver.trees.mark keep).remains = (resolver.cuts keep).remains.map Site.node :=
    Forest.remains_mark_map (fun _ => rfl) resolver.forest
  rw [hmark, trees, Forest.map_map, Forest.map_map]
  exact houtline

/-- **The lineages that a filter keeps.** They are those all nodes of which are to be kept, in the
same order; nodes are compared without what is below them, and have lost the options noted. -/
theorem lineages_filterBy (keep : Node → Bool) :
    (resolver.filterBy keep).lineages.map (List.map Node.emptied) =
      (resolver.lineages.filter (List.all · keep)).map (List.map fun node =>
        node.emptied.mapOptions (Options.without (resolver.notes keep))) := by
  rw [lineages, lineages, ← Forest.lineages_map, map_emptied_trees_filterBy, Forest.lineages_map,
    Forest.lineages_remains_mark]

end Resolver

end SchemaForge
