import SchemaForge.Proofs.Resolver.Composition
import SchemaForge.Proofs.Resolver.Walk
set_option autoImplicit false

/-!
# Filters with a descending keeper

A filter asks about a node, and then about those below it. A descending keeper, each time that it is
asked, walks all that is below the node besides, so it is shown the same nodes over and over. Where
the decision about a node does not depend on what has been shown before, this changes what the
keeper remembers, but not the schema that it keeps.

## Main definitions

* `SchemaForge.Keeper.noting` — a keeper that takes note of each node and decides by the node alone.

## Main results

* `SchemaForge.Keeper.descending_noting` — when it descends, it is again such a keeper.
* `SchemaForge.Resolver.filter_eq_filterBy` — a filter is determined by its cuts.
* `SchemaForge.Resolver.filter_descending` — what is kept, and what has been shown.
-/

namespace SchemaForge

/-! ### Deciding by the label alone -/

namespace Forest

variable {α σ : Type}

/-- A decision that does not depend on the memory, in which the label is noted. -/
def noting (keep : α → Bool) (remember : σ → α → σ) (label : α) : StateM σ Bool := fun memory =>
  (keep label, remember memory label)

/-- To judge a forest by such a decision is to mark its cuts and to note the labels asked about. -/
theorem run_judge_noting (keep : α → Bool) (remember : σ → α → σ) (f : Forest α) (memory : σ) :
    (f.judge (noting keep remember)).run memory =
      (f.mark keep, ((f.mark keep).calls.map Prod.fst).foldl remember memory) := by
  induction f generalizing memory with
  | nil => rfl
  | node label below rest ihBelow ihRest =>
    have hask : (noting keep remember label).run memory = (keep label, remember memory label) := rfl
    cases hkeep : keep label with
    | true =>
      rw [hkeep] at hask
      rw [run_judge_of_accepted hask, mark_of_kept hkeep, ihBelow, ihRest, Cutting.calls,
        List.map_cons, List.map_append, List.foldl_cons, List.foldl_append]
    | false =>
      rw [hkeep] at hask
      rw [run_judge_of_rejected hask, mark_of_rejected hkeep, ihRest, Cutting.calls,
        List.map_cons, List.foldl_cons]

end Forest

namespace Keeper

variable {σ : Type} (keep : Node → Bool) (remember : σ → Node → σ)

/-- A keeper that takes note of each node it is shown, and decides by the node alone. -/
def noting : Keeper σ := fun node _ memory => (keep node, remember memory node)

/-- It notes the nodes that it is shown, in their order. -/
theorem showAll_noting (nodes : List Node) (memory : σ) :
    ((noting keep remember).showAll () nodes).run memory = ((), nodes.foldl remember memory) := by
  induction nodes generalizing memory with
  | nil => rfl
  | cons node nodes ih =>
    rw [Handler.showAll, StateT.run_bind, List.foldl_cons]
    exact ih (remember memory node)

/-- When it descends it decides in the same way, and notes the whole walk from the node. -/
theorem descending_noting :
    (noting keep remember).descending =
      noting keep fun memory node => node.postorder.foldl remember memory := by
  funext node _ memory
  have hwalk := showAll_noting keep remember node.below memory
  calc ((noting keep remember).descending node ()).run memory
    _ = ((noting keep remember).showAll () node.below >>= fun _ =>
          noting keep remember node ()).run memory := by rw [Handler.descending_eq]
    _ = (keep node, remember (node.below.foldl remember memory) node) := by
        rw [StateT.run_bind, hwalk]
        rfl
    _ = (keep node, node.postorder.foldl remember memory) := by
        rw [Node.postorder, List.foldl_append, List.foldl_cons, List.foldl_nil]

/-- It cuts a forest where its decision says so, and notes what it is asked about. -/
theorem judge_noting (f : Forest Site) (memory : σ) :
    (noting keep remember).judge f memory =
      (f.mark (Site.isKept keep),
        ((f.mark (Site.isKept keep)).calls.map fun call => call.1.node).foldl remember memory) := by
  have hnodes : ((f.mark (Site.isKept keep)).calls.map Prod.fst).map Site.node =
      (f.mark (Site.isKept keep)).calls.map fun call => call.1.node := List.map_map
  rw [← hnodes, List.foldl_map]
  exact Forest.run_judge_noting (Site.isKept keep) (fun memory site => remember memory site.node) f
    memory

end Keeper

namespace Resolver

variable {σ : Type} (resolver : Resolver) (keep : Node → Bool)

/-- **A filter is determined by its cuts.** What is kept does not depend on how the keeper has come
to its decisions. -/
theorem filter_eq_filterBy {keeper : Keeper σ} {memory : σ}
    (h : (keeper.judge resolver.forest memory).1 = resolver.cuts keep) :
    (resolver.filter keeper memory).1 = resolver.filterBy keep := by
  have hnotes : (resolver.cut keeper memory).2.removed.contains = resolver.notes keep := by
    funext url
    rw [Bool.eq_iff_iff, notes_iff, List.contains_iff_mem, mem_removed_cut, h]
  refine eq_of_outline_eq ?_
  rw [outline_filter, outline_filterBy, h, hnotes]

/-- What a keeper that decides by the node alone keeps, and what it has noted. -/
theorem filter_noting (remember : σ → Node → σ) (memory : σ) :
    resolver.filter (Keeper.noting keep remember) memory =
      (resolver.filterBy keep,
        ((resolver.cuts keep).calls.map fun call => call.1.node).foldl remember memory) := by
  have hjudge := Keeper.judge_noting keep remember resolver.forest memory
  refine Prod.ext (resolver.filter_eq_filterBy keep (congrArg Prod.fst hjudge)) ?_
  rw [memory_filter, hjudge]
  rfl

/-- **Descending keepers.** Let a keeper decide by the node alone, whatever it takes note of. Then a
filter with this keeper and one in which it descends give the same schema. Without descending it is
shown the nodes that the filter asks about, and descending it is shown, at each of these, all that
is below it and then the node.

**Proof sketch.** A descending visitor says of a node what the handler says of this node itself, so
when it descends the keeper is one that decides in the same way and notes a whole walk at a time
(`Keeper.descending_noting`). Both therefore make the same cuts, and these determine the schema that
is kept (`filter_eq_filterBy`). -/
theorem filter_descending (remember : σ → Node → σ) (memory : σ) :
    let keeper := Keeper.noting keep remember
    let asked := (resolver.cuts keep).calls.map fun call => call.1.node
    (resolver.filter keeper.descending memory).1 = (resolver.filter keeper memory).1 ∧
      (resolver.filter keeper memory).1 = resolver.filterBy keep ∧
      (resolver.filter keeper memory).2 = asked.foldl remember memory ∧
      (resolver.filter keeper.descending memory).2 =
        (asked.flatMap Node.postorder).foldl remember memory := by
  intro keeper asked
  have hflat : resolver.filter keeper memory =
      (resolver.filterBy keep, asked.foldl remember memory) :=
    resolver.filter_noting keep remember memory
  have hdescending : resolver.filter keeper.descending memory =
      (resolver.filterBy keep,
        asked.foldl (fun memory node => node.postorder.foldl remember memory) memory) := by
    rw [Keeper.descending_noting]
    exact resolver.filter_noting keep _ memory
  rw [hflat, hdescending, List.foldl_flatMap]
  exact ⟨rfl, rfl, rfl, rfl⟩

end Resolver

end SchemaForge
