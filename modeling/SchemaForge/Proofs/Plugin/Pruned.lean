import Mathlib.Data.List.Basic
import SchemaForge.Proofs.Plugin.Prune
import SchemaForge.Proofs.Resolver.Lineages
set_option autoImplicit false

/-!
# What pruning takes away

The options of a node may mark it: as one for the source only or, where deprecated rpcs are dropped,
as a deprecated rpc. Pruning takes away the marked nodes and what is nested in them, and nothing
else. What is left bears no marks, although options have been taken from it after the decision.

## Main definitions

* `SchemaForge.Prune.IsMarked` — the marks of a node.
* `SchemaForge.Prune.missing`, `SchemaForge.Prune.staying` — the nodes that are nested in a marked
  one or marked themselves, and the others, each with those that it is nested in.

## Main results

* `SchemaForge.Prune.run_process_of_marks` — the processor takes away what is marked.
-/

namespace SchemaForge.Prune

/-! ### Marks -/

/-- The node has options, and these mark it as one for the source only or, where deprecated rpcs are
dropped, the node is a deprecated rpc. -/
def IsMarked (dropDeprecated : Bool) (node : Node) : Prop :=
  ∃ options, node.options? = some options ∧
    (options.isSourceOnly = true ∨
      dropDeprecated = true ∧ node.kind = .rpc ∧ options.isDeprecated = true)

variable (dropDeprecated : Bool)

/-- The marked nodes are those that do not stay. -/
theorem keeps_eq_false_iff (node : Node) :
    keeps dropDeprecated node = false ↔ IsMarked dropDeprecated node := by
  rw [keeps, IsMarked]
  cases node.options? with
  | none => simp
  | some options =>
    simp only [Option.some.injEq, exists_eq_left', Bool.and_eq_false_iff, Bool.not_eq_false',
      Bool.and_eq_true, beq_iff_eq, and_assoc]

instance (node : Node) : Decidable (IsMarked dropDeprecated node) :=
  decidable_of_iff _ (keeps_eq_false_iff dropDeprecated node)

theorem keeps_iff (node : Node) :
    keeps dropDeprecated node = true ↔ ¬ IsMarked dropDeprecated node := by
  rw [← keeps_eq_false_iff, Bool.not_eq_false]

/-! ### What is to go -/

/-- The nodes that are marked or nested in a marked one, each in front of those that it is nested
in. -/
def missing (files : List SchemaFile) : List (List Node) :=
  (⟨files⟩ : Resolver).lineages.filter fun lineage =>
    ∃ node ∈ lineage, IsMarked dropDeprecated node

/-- The other nodes, each in front of those that it is nested in. -/
def staying (files : List SchemaFile) : List (List Node) :=
  (⟨files⟩ : Resolver).lineages.filter fun lineage =>
    ¬ ∃ node ∈ lineage, IsMarked dropDeprecated node

variable (files : List SchemaFile)

/-- The nodes of a schema are to go or to stay. -/
theorem length_staying_add_length_missing :
    (staying dropDeprecated files).length + (missing dropDeprecated files).length =
      countNodes files := by
  have hsplit := (⟨files⟩ : Resolver).lineages.length_eq_length_filter_add fun lineage =>
    decide (∃ node ∈ lineage, IsMarked dropDeprecated node)
  rw [Resolver.length_lineages] at hsplit
  rw [hsplit, Nat.add_comm, staying, missing]
  simp only [decide_not]

/-- Those that stay are the nodes that the decision keeps with all that they are nested in. -/
theorem staying_eq : staying dropDeprecated files =
    (⟨files⟩ : Resolver).lineages.filter (List.all · (keeps dropDeprecated)) := by
  refine List.filter_congr fun lineage _ => ?_
  rw [Bool.eq_iff_iff, decide_eq_true_iff, List.all_eq_true, not_exists]
  refine forall_congr' fun node => ?_
  rw [not_and, keeps_iff]

/-! ### What is left -/

/-- No node of a pruned schema is marked. -/
theorem not_isMarked_of_mem_prune {node : Node}
    (h : node ∈ (prune dropDeprecated files).flatMap SchemaFile.nodes) :
    ¬ IsMarked dropDeprecated node := by
  rw [prune, ← Resolver.nodes_forest, Forest.nodes] at h
  obtain ⟨site, hsite, rfl⟩ := List.mem_map.1 h
  rw [← keeps_iff]
  exact Resolver.keep_of_mem_filterBy (keeps_emptied dropDeprecated)
    (keeps_mapOptions_without dropDeprecated) hsite

/-- The nodes of a pruned schema are those that stay, in their places. -/
theorem lineages_prune :
    (⟨prune dropDeprecated files⟩ : Resolver).lineages.map (List.map Node.emptied) =
      (staying dropDeprecated files).map (List.map fun node => node.emptied.mapOptions
        (Options.without ((⟨files⟩ : Resolver).notes (keeps dropDeprecated)))) := by
  rw [staying_eq]
  exact Resolver.lineages_filterBy ⟨files⟩ (keeps dropDeprecated)

/-- Pruning makes a schema smaller by the nodes that are to go. -/
theorem countNodes_prune_add_length_missing :
    countNodes (prune dropDeprecated files) + (missing dropDeprecated files).length =
      countNodes files := by
  have hlength := congrArg List.length (lineages_prune dropDeprecated files)
  rw [List.length_map, List.length_map, Resolver.length_lineages] at hlength
  rw [hlength, length_staying_add_length_missing]

/-! ### The processor -/

/-- Whether the options of a call ask for deprecated rpcs to be dropped. -/
def dropsDeprecated (call : Call) : Bool := (call.options.flag? dropDeprecatedKey).getD false

/-- **Pruning is clean and minimal.** Whatever schema the processor is given, and whether or not it
is to drop deprecated rpcs, it gives back a schema no node of which is marked by the options that it
has there, at whatever depth. The nodes of that schema are, in their order and with those that they
are nested in, the nodes of the given one that are neither marked nor nested in a marked node; apart
from what is below them, they differ at most in options that have been taken away. The number that
is logged is the number of the nodes that are missing, and these are all by which the schema has
become smaller.

**Proof sketch.** The filter cuts the trees of the schema at the nodes that the decision rejects, so
a node stays if the decision keeps it and all those that it is nested in (`lineages_prune`). The
counting visitor counts each node once, whichever way it walks (`countNodes_eq_length`), hence both
counts are numbers of such lists, and each list stays or is missing. To take options away makes no
mark appear (`keeps_mapOptions_without`), so what is left is clean. -/
theorem run_process_of_marks {σ : Type} (call : Call) (journal : Journal σ) :
    ∃ pruned,
      (process call).run journal = (.ok pruned, ⟨journal.world, journal.entries ++
        [⟨call.logger.audience, .lifecycle, "Removed " ++
          toString (missing (dropsDeprecated call) call.files).length ++ " declaration(s)"⟩]⟩) ∧
      (∀ node ∈ pruned.flatMap SchemaFile.nodes, ¬ IsMarked (dropsDeprecated call) node) ∧
      (⟨pruned⟩ : Resolver).lineages.map (List.map Node.emptied) =
        (staying (dropsDeprecated call) call.files).map (List.map fun node =>
          node.emptied.mapOptions (Options.without
            ((⟨call.files⟩ : Resolver).notes (keeps (dropsDeprecated call))))) ∧
      countNodes pruned + (missing (dropsDeprecated call) call.files).length =
        countNodes call.files := by
  have hcount := countNodes_prune_add_length_missing (dropsDeprecated call) call.files
  have hremoved : countNodes call.files - countNodes (prune (dropsDeprecated call) call.files) =
      (missing (dropsDeprecated call) call.files).length := by omega
  refine ⟨prune (dropsDeprecated call) call.files, ?_,
    fun node hnode => not_isMarked_of_mem_prune _ _ hnode, lineages_prune _ _, hcount⟩
  rw [run_process, ← hremoved]
  rfl

/-- A file with two types, the first of which is for the source only and has a type nested in it. -/
def draftsFile : SchemaFile :=
  let typeWith (name : String) (options : Options) : TypeHead :=
    ⟨name, "", ⟨"acme." ++ name⟩, options, .unknown, [], .enclosing⟩
  ⟨"drafts", ⟨"acme"⟩, [], [], [], .unknown, [],
    [⟨typeWith "Draft" [⟨"", Options.sourceOnlyMessageField, some (.raw "true")⟩],
        [⟨typeWith "Note" [], []⟩]⟩,
      ⟨typeWith "Order" [], []⟩]⟩

example : (missing false [draftsFile]).map (List.map Node.name) =
      [["Draft", "drafts"], ["Note", "Draft", "drafts"]] ∧
    ((prune false [draftsFile]).flatMap SchemaFile.nodes).map Node.name =
      ["drafts", "Order"] := by decide

end SchemaForge.Prune
