import SchemaForge.Plugin.Prune
import SchemaForge.Proofs.Plugin.Running
import SchemaForge.Proofs.Resolver.Composition
set_option autoImplicit false

/-!
# Pruning a schema twice

Whether a node is pruned hangs on its options, and pruning itself takes options away, among them
those that the decision reads. No mark appears by that, so a node that has stayed once stays again.

## Main results

* `SchemaForge.Prune.prune_prune` — a pruned schema is not pruned any further.
* `SchemaForge.Prune.run_process_again` — the processor on its own output.
-/

namespace SchemaForge.Prune

variable (dropDeprecated : Bool)

/-- The decision does not see what is below a node. -/
theorem keeps_emptied (node : Node) :
    keeps dropDeprecated node.emptied = keeps dropDeprecated node := by
  rw [keeps, keeps, Node.options?_emptied, Node.kind_emptied]

/-- A node that stays would stay without some of its options. -/
theorem keeps_mapOptions_without (removed : MemberUrl → Bool) (node : Node)
    (h : keeps dropDeprecated node = true) :
    keeps dropDeprecated (node.mapOptions (Options.without removed)) = true := by
  have hkind : (node.mapOptions (Options.without removed)).kind = node.kind := by
    cases node <;> rfl
  rw [keeps, Node.options?_mapOptions, hkind]
  rw [keeps] at h
  cases hoptions : node.options? with
  | none => rfl
  | some options =>
    rw [hoptions] at h
    simp only [Bool.and_eq_true, Bool.not_eq_true', Option.map_some] at h ⊢
    refine ⟨Bool.eq_false_iff.2 fun hmarked => ?_, Bool.eq_false_iff.2 fun hmarked => ?_⟩
    · exact Bool.eq_false_iff.1 h.1 (Options.isSourceOnly_of_without hmarked)
    · obtain ⟨hrpc, hdeprecated⟩ := (Bool.and_eq_true _ _).mp hmarked
      refine Bool.eq_false_iff.1 h.2 ?_
      rw [hrpc, Options.isDeprecated_of_without hdeprecated, Bool.and_self]

/-- A pruned schema is not pruned any further. -/
theorem prune_prune (files : List SchemaFile) :
    prune dropDeprecated (prune dropDeprecated files) = prune dropDeprecated files :=
  congrArg Resolver.files (Resolver.filterBy_filterBy_self (keeps_emptied dropDeprecated)
    (keeps_mapOptions_without dropDeprecated))

/-- What the processor gives back, and what it says. -/
theorem run_process {σ : Type} (call : Call) (journal : Journal σ) :
    (process call).run journal =
      (.ok (prune ((call.options.flag? dropDeprecatedKey).getD false) call.files),
        ⟨journal.world, journal.entries ++ [⟨call.logger.audience, .lifecycle, "Removed " ++
          toString (countNodes call.files -
            countNodes (prune ((call.options.flag? dropDeprecatedKey).getD false) call.files)) ++
          " declaration(s)"⟩]⟩) := by
  rw [process, Logger.progress, Work.run_bind, Logger.run_log]
  rfl

/-- **Pruning is idempotent.** Whatever the options say of deprecated rpcs, the processor gives back
a schema, and called with these options and this schema it gives back the very same schema and says
that nothing has been removed, even though the options that decide may have been taken away by the
first run.

**Proof sketch.** What is left after the first run are nodes that were to stay, without what has
been pruned below them and without some of their options. A raw value is left as it is or goes with
its option (`Options.raw?_of_without`), so no node has become one for the source only, nor
deprecated, and the second run rejects none (`Resolver.filterBy_filterBy_self`). -/
theorem run_process_again {σ : Type} (call : Call) (logger : Logger) (journal later : Journal σ) :
    ∃ pruned, ((process call).run journal).1 = .ok pruned ∧
      (process ⟨call.options, pruned, logger⟩).run later =
        (.ok pruned, ⟨later.world, later.entries ++
          [⟨logger.audience, .lifecycle, "Removed 0 declaration(s)"⟩]⟩) := by
  refine ⟨prune ((call.options.flag? dropDeprecatedKey).getD false) call.files, ?_, ?_⟩
  · rw [run_process]
  · rw [run_process, prune_prune, Nat.sub_self]
    rfl

end SchemaForge.Prune
