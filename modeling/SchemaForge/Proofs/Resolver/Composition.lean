import SchemaForge.Proofs.Resolver.Determined
import SchemaForge.Proofs.Resolver.Survivors
import SchemaForge.Proofs.Schema.Without
set_option autoImplicit false

/-!
# Filters one after the other

A keeper without a memory decides about each node by itself, so the cuts that it makes can be marked
in a forest in any order. If it looks at the kind and the name of a node only, it does not matter to
it what has been cut before, nor which options have gone. Two such filters one after the other cut
what the two decisions together cut, and note, the one or the other, the urls of the same fields.

## Main definitions

* `SchemaForge.Forest.mark` — the cuts of a decision without a memory.
* `SchemaForge.Node.decideByName` — a decision by kind and name.

## Main results

* `SchemaForge.Resolver.outline_filterBy` — the forest of what such a filter keeps.
* `SchemaForge.Resolver.keep_of_mem_filterBy`, `SchemaForge.Resolver.filterBy_filterBy_self` — when
  a filter would keep all that it gives back, and filtering again changes nothing.
* `SchemaForge.Resolver.filterBy_filterBy_byName` — filters by kind and name compose and commute.
-/

namespace SchemaForge

/-! ### Decisions without a memory -/

namespace Forest

variable {α β : Type}

/-- A decision that remembers nothing. -/
def asking (keep : α → Bool) (label : α) : StateM Unit Bool := pure (keep label)

/-- What two decisions both keep. -/
def both (first second : α → Bool) (label : α) : Bool := first label && second label

/-- The forest in which the nodes are cut that are not to be kept. -/
def mark (keep : α → Bool) : Forest α → Cutting α
  | nil => .nil
  | node label below rest =>
    if keep label then .kept label (below.mark keep) (rest.mark keep)
    else .cut label below (rest.mark keep)

variable {keep : α → Bool}

theorem mark_of_kept {label : α} (h : keep label = true) (below rest : Forest α) :
    (node label below rest).mark keep = .kept label (below.mark keep) (rest.mark keep) :=
  if_pos h

theorem mark_of_rejected {label : α} (h : keep label = false) (below rest : Forest α) :
    (node label below rest).mark keep = .cut label below (rest.mark keep) :=
  if_neg (Bool.eq_false_iff.1 h)

/-- To judge a forest by a decision without a memory is to mark its cuts. -/
theorem run_judge_asking (keep : α → Bool) (f : Forest α) (memory : Unit) :
    (f.judge (asking keep)).run memory = (f.mark keep, memory) := by
  induction f with
  | nil => rfl
  | node label below rest ihBelow ihRest =>
    cases hkeep : keep label with
    | true =>
      have hask : (asking keep label).run memory = (true, memory) := by
        rw [asking, hkeep]
        rfl
      rw [run_judge_of_accepted hask, mark_of_kept hkeep, ihBelow, ihRest]
    | false =>
      have hask : (asking keep label).run memory = (false, memory) := by
        rw [asking, hkeep]
        rfl
      rw [run_judge_of_rejected hask, mark_of_rejected hkeep, ihRest]

/-- Without the cuts the forest is the one that was marked. -/
theorem whole_mark (keep : α → Bool) (f : Forest α) : (f.mark keep).whole = f := by
  induction f with
  | nil => rfl
  | node label below rest ihBelow ihRest =>
    cases hkeep : keep label with
    | true => rw [mark_of_kept hkeep, Cutting.whole, ihBelow, ihRest]
    | false => rw [mark_of_rejected hkeep, Cutting.whole, ihRest]

/-- Where every node is to be kept, nothing is absent. -/
theorem absent_mark_of_forall {f : Forest α} (h : ∀ label ∈ f.labels, keep label = true) :
    (f.mark keep).absent = [] := by
  induction f with
  | nil => rfl
  | node label below rest ihBelow ihRest =>
    simp only [labels, List.forall_mem_cons, List.forall_mem_append] at h
    rw [mark_of_kept h.1, Cutting.absent, ihBelow h.2.1, ihRest h.2.2]
    rfl

/-- Then the forest is kept as it is. -/
theorem remains_mark_of_forall {f : Forest α} (h : ∀ label ∈ f.labels, keep label = true) :
    (f.mark keep).remains = f := by
  induction f with
  | nil => rfl
  | node label below rest ihBelow ihRest =>
    simp only [labels, List.forall_mem_cons, List.forall_mem_append] at h
    rw [mark_of_kept h.1, Cutting.remains, ihBelow h.2.1, ihRest h.2.2]

/-- What is kept is to be kept. -/
theorem keep_of_mem_remains_mark {f : Forest α} {label : α}
    (h : label ∈ (f.mark keep).remains.labels) : keep label = true := by
  induction f with
  | nil => cases h
  | node root below rest ihBelow ihRest =>
    cases hkeep : keep root with
    | true =>
      rw [mark_of_kept hkeep, Cutting.remains, labels, List.mem_cons, List.mem_append] at h
      rcases h with rfl | h | h
      · exact hkeep
      · exact ihBelow h
      · exact ihRest h
    | false =>
      rw [mark_of_rejected hkeep, Cutting.remains] at h
      exact ihRest h

/-! ### Other labels -/

section Map

variable {change : α → β} {other : β → Bool}

/-- If a decision does not see a change of the labels, it keeps the same nodes. -/
theorem remains_mark_map (h : ∀ label, other (change label) = keep label) (f : Forest α) :
    ((f.map change).mark other).remains = (f.mark keep).remains.map change := by
  induction f with
  | nil => rfl
  | node label below rest ihBelow ihRest =>
    cases hkeep : keep label with
    | true =>
      rw [map, mark_of_kept ((h label).trans hkeep), mark_of_kept hkeep, Cutting.remains,
        Cutting.remains, map, ihBelow, ihRest]
    | false =>
      rw [map, mark_of_rejected ((h label).trans hkeep), mark_of_rejected hkeep,
        Cutting.remains, Cutting.remains, ihRest]

/-- And it makes the same nodes absent. -/
theorem absent_mark_map (h : ∀ label, other (change label) = keep label) (f : Forest α) :
    ((f.map change).mark other).absent = (f.mark keep).absent.map change := by
  induction f with
  | nil => rfl
  | node label below rest ihBelow ihRest =>
    cases hkeep : keep label with
    | true =>
      rw [map, mark_of_kept ((h label).trans hkeep), mark_of_kept hkeep, Cutting.absent,
        Cutting.absent, List.map_append, ihBelow, ihRest]
    | false =>
      rw [map, mark_of_rejected ((h label).trans hkeep), mark_of_rejected hkeep, Cutting.absent,
        Cutting.absent, List.map_cons, List.map_append, labels_map, ihRest]

end Map

/-! ### Two decisions -/

section Both

variable (first second : α → Bool)

theorem both_of_kept {label : α} (hfirst : first label = true) (hsecond : second label = true) :
    both first second label = true := by
  rw [both, hfirst, hsecond, Bool.and_self]

theorem both_of_rejected_left {label : α} (h : first label = false) :
    both first second label = false := by
  rw [both, h, Bool.false_and]

theorem both_of_rejected_right {label : α} (h : second label = false) :
    both first second label = false := by
  rw [both, h, Bool.and_false]

/-- What two decisions keep one after the other is what both keep together. -/
theorem remains_mark_remains_mark (f : Forest α) :
    ((f.mark first).remains.mark second).remains =
      (f.mark (both first second)).remains := by
  induction f with
  | nil => rfl
  | node label below rest ihBelow ihRest =>
    cases hfirst : first label with
    | false =>
      have hboth := both_of_rejected_left first second hfirst
      rw [mark_of_rejected hfirst, mark_of_rejected hboth, Cutting.remains, Cutting.remains,
        ihRest]
    | true =>
      rw [mark_of_kept hfirst, Cutting.remains]
      cases hsecond : second label with
      | false =>
        have hboth := both_of_rejected_right first second hsecond
        rw [mark_of_rejected hsecond, mark_of_rejected hboth, Cutting.remains, Cutting.remains,
          ihRest]
      | true =>
        have hboth := both_of_kept first second hfirst hsecond
        rw [mark_of_kept hsecond, mark_of_kept hboth, Cutting.remains, Cutting.remains, ihBelow,
          ihRest]

/-- What is absent then has been cut by the one or by the other. -/
theorem mem_absent_mark_both (f : Forest α) (label : α) :
    label ∈ (f.mark (both first second)).absent ↔
      label ∈ (f.mark first).absent ∨ label ∈ ((f.mark first).remains.mark second).absent := by
  induction f with
  | nil => simp [mark, Cutting.absent, Cutting.remains]
  | node root below rest ihBelow ihRest =>
    cases hfirst : first root with
    | false =>
      have hboth := both_of_rejected_left first second hfirst
      rw [mark_of_rejected hfirst, mark_of_rejected hboth]
      simp only [Cutting.absent, Cutting.remains, List.mem_cons, List.mem_append, ihRest, or_assoc]
    | true =>
      rw [mark_of_kept hfirst, Cutting.remains]
      cases hsecond : second root with
      | false =>
        have hboth := both_of_rejected_right first second hsecond
        -- below the node everything is absent: some of it by the first cut, the rest by the second
        have hbelow : label ∈ below.labels ↔ label ∈ (below.mark first).absent ∨
            label ∈ (below.mark first).remains.labels := by
          rw [← List.mem_append, (below.mark first).absent_perm.mem_iff, whole_mark]
        rw [mark_of_rejected hsecond, mark_of_rejected hboth]
        simp only [Cutting.absent, List.mem_cons, List.mem_append, ihRest, hbelow]
        grind
      | true =>
        have hboth := both_of_kept first second hfirst hsecond
        rw [mark_of_kept hsecond, mark_of_kept hboth]
        simp only [Cutting.absent, List.mem_append, ihBelow, ihRest]
        grind

end Both

end Forest

/-! ### Filters without a memory -/

/-- Whether the node of a place is to be kept. -/
def Site.isKept (keep : Node → Bool) (site : Site) : Bool := keep site.node

namespace Resolver

variable (resolver : Resolver) (keep : Node → Bool)

/-- The cuts of a filter without a memory. -/
def cuts : Cutting Site := resolver.forest.mark (Site.isKept keep)

/-- Whether a url is noted by a filter without a memory. -/
def notes (url : MemberUrl) : Bool :=
  (resolver.cut (fun node _ => pure (keep node) : Keeper Unit) ()).2.removed.contains url

/-- To judge the forest by a keeper without a memory is to mark its cuts. -/
theorem fst_judge_eq_cuts :
    (Keeper.judge (fun node _ => pure (keep node)) resolver.forest ()).1 = resolver.cuts keep :=
  congrArg Prod.fst (Forest.run_judge_asking (Site.isKept keep) resolver.forest ())

/-- The urls noted are those of the fields that are absent. -/
theorem notes_iff (url : MemberUrl) :
    resolver.notes keep url = true ↔
      ∃ site ∈ (resolver.cuts keep).absent, site.Names url := by
  rw [notes, List.contains_iff_mem, mem_removed_cut, fst_judge_eq_cuts]

/-- **The forest that is kept.** Without what is below it, each node that is kept is what it was,
apart from the options of fields that are noted. -/
theorem outline_filterBy :
    (resolver.filterBy keep).forest.outline =
      (resolver.cuts keep).remains.outline.mapOptions
        (Options.without (resolver.notes keep)) := by
  rw [filterBy, outline_filter, fst_judge_eq_cuts]
  rfl

/-- A filter that rejects no node changes nothing. -/
theorem filterBy_eq_self (h : ∀ site ∈ resolver.forest.labels, keep site.node = true) :
    resolver.filterBy keep = resolver := by
  have habsent : (resolver.cuts keep).absent = [] := Forest.absent_mark_of_forall h
  have hremains : (resolver.cuts keep).remains = resolver.forest :=
    Forest.remains_mark_of_forall h
  have hnotes : resolver.notes keep = fun _ => false := by
    funext url
    rw [Bool.eq_false_iff, Ne, notes_iff, habsent]
    rintro ⟨site, hsite, -⟩
    cases hsite
  have hsite : Site.mapOptions (Options.without fun _ => false) = fun site => site := by
    rw [show Options.without (fun _ => false) = id from funext Options.without_false]
    exact funext fun site => congrArg (Site.mk · site.owner?) site.node.mapOptions_id
  refine eq_of_outline_eq ?_
  rw [outline_filterBy, hremains, hnotes, Forest.mapOptions, hsite, Forest.map_id]

section Again

variable {resolver} {keep}
  (hemptied : ∀ node : Node, keep node.emptied = keep node)
  (hwithout : ∀ (removed : MemberUrl → Bool) (node : Node), keep node = true →
    keep (node.mapOptions (Options.without removed)) = true)

include hemptied hwithout

/-- If what a filter cuts below a node and what it takes from its options never makes it reject the
node, then it would keep all that it gives back. -/
theorem keep_of_mem_filterBy {site : Site} (h : site ∈ (resolver.filterBy keep).forest.labels) :
    keep site.node = true := by
  have hmem : site.emptied ∈ (resolver.filterBy keep).forest.outline.labels := by
    rw [Forest.outline, Forest.labels_map]
    exact List.mem_map_of_mem h
  rw [outline_filterBy, Forest.mapOptions, Forest.outline, Forest.labels_map, Forest.labels_map,
    List.map_map] at hmem
  obtain ⟨origin, horigin, heq⟩ := List.mem_map.1 hmem
  have hkept : Site.isKept keep origin = true := Forest.keep_of_mem_remains_mark horigin
  have hnode : origin.node.emptied.mapOptions (Options.without (resolver.notes keep)) =
      site.node.emptied := congrArg Site.node heq
  rw [← hemptied, ← hnode]
  exact hwithout _ _ ((hemptied origin.node).trans hkept)

/-- **Filtering twice.** Then filtering again changes nothing. -/
theorem filterBy_filterBy_self :
    (resolver.filterBy keep).filterBy keep = resolver.filterBy keep :=
  filterBy_eq_self _ keep fun _ hsite => keep_of_mem_filterBy hemptied hwithout hsite

end Again

end Resolver

/-! ### Decisions by kind and name -/

/-- The decision that looks at the kind and the name of a node only. -/
def Node.decideByName (keep : NodeKind → String → Bool) (node : Node) : Bool :=
  keep node.kind node.name

namespace Site

variable (keep : NodeKind → String → Bool) (change : Options → Options) (site : Site)

/-- Such a decision does not see what is below a node. -/
theorem isKept_emptied :
    isKept (Node.decideByName keep) site.emptied = isKept (Node.decideByName keep) site := by
  obtain ⟨node, owner?⟩ := site
  cases node <;> rfl

/-- Nor does it see which options the node has. -/
theorem isKept_mapOptions :
    isKept (Node.decideByName keep) (mapOptions change site) =
      isKept (Node.decideByName keep) site := by
  obtain ⟨node, owner?⟩ := site
  cases node <;> rfl

/-- Only a field is known under a url. -/
theorem not_names (url : MemberUrl) (h : site.node.kind ≠ .field) : ¬ site.Names url := by
  rintro ⟨field, hfield, -⟩
  exact h (congrArg Node.kind hfield)

/-- A field is known under the same urls whatever is below it. -/
theorem names_emptied (url : MemberUrl) : site.emptied.Names url ↔ site.Names url := by
  obtain ⟨node, owner?⟩ := site
  cases node with
  | field field => exact .rfl
  | _ => exact iff_of_false (not_names _ url nofun) (not_names _ url nofun)

/-- And so it is whatever its options are. -/
theorem names_mapOptions (url : MemberUrl) :
    (mapOptions change site).Names url ↔ site.Names url := by
  obtain ⟨node, owner?⟩ := site
  cases node with
  | field field =>
    constructor
    · rintro ⟨other, hother, howner, hmember⟩
      obtain rfl := Node.field.inj hother
      exact ⟨field, rfl, howner, hmember⟩
    · rintro ⟨other, hother, howner, hmember⟩
      obtain rfl := Node.field.inj hother
      exact ⟨_, rfl, howner, hmember⟩
  | _ => exact iff_of_false (not_names _ url nofun) (not_names _ url nofun)

/-- To take the options of some fields and then those of others is to take those of both. -/
theorem mapOptions_without_without (first second : MemberUrl → Bool) (site : Site) :
    mapOptions (Options.without second) (mapOptions (Options.without first) site) =
      mapOptions (Options.without fun url => first url || second url) site := by
  have hcomp : Options.without second ∘ Options.without first =
      Options.without fun url => first url || second url :=
    funext (Options.without_without first second)
  rw [mapOptions, mapOptions, Node.mapOptions_mapOptions, hcomp, mapOptions]

/-- A change that leaves the urls of the fields leaves those of a whole list. -/
theorem exists_names_map {url : MemberUrl} {change : Site → Site}
    (h : ∀ site, (change site).Names url ↔ site.Names url) (sites : List Site) :
    (∃ site ∈ sites.map change, site.Names url) ↔ ∃ site ∈ sites, site.Names url := by
  constructor
  · rintro ⟨_, hmem, hnames⟩
    obtain ⟨site, hsite, rfl⟩ := List.mem_map.1 hmem
    exact ⟨site, hsite, (h site).1 hnames⟩
  · rintro ⟨site, hsite, hnames⟩
    exact ⟨change site, List.mem_map_of_mem hsite, (h site).2 hnames⟩

end Site

namespace Resolver

variable {resolver : Resolver} {f : Forest Site} {change : Options → Options}
  (keep : NodeKind → String → Bool)

/-- A decision by kind and name keeps the same nodes of a schema as of any forest that differs only
in the options of its nodes, and in what they hold besides what is below them. -/
theorem outline_remains_cuts (h : resolver.forest.outline = f.outline.mapOptions change) :
    (resolver.cuts (Node.decideByName keep)).remains.outline =
      (f.mark (Site.isKept (Node.decideByName keep))).remains.outline.mapOptions change := by
  have hoptions := Forest.remains_mark_map (Site.isKept_mapOptions keep change) f.outline
  rw [Forest.outline, Forest.remains_mark_map (Site.isKept_emptied keep)] at hoptions
  rw [cuts, Forest.outline, ← Forest.remains_mark_map (Site.isKept_emptied keep)]
  exact (congrArg (fun f => (Forest.mark (Site.isKept (Node.decideByName keep)) f).remains) h).trans
    hoptions

/-- Fields with the same urls are absent then. -/
theorem names_absent_cuts (h : resolver.forest.outline = f.outline.mapOptions change)
    (url : MemberUrl) :
    (∃ site ∈ (resolver.cuts (Node.decideByName keep)).absent, site.Names url) ↔
      ∃ site ∈ (f.mark (Site.isKept (Node.decideByName keep))).absent, site.Names url := by
  have hoptions := Forest.absent_mark_map (Site.isKept_mapOptions keep change) f.outline
  rw [Forest.outline, Forest.absent_mark_map (Site.isKept_emptied keep)] at hoptions
  have habsent : (resolver.cuts (Node.decideByName keep)).absent.map Site.emptied =
      ((f.mark (Site.isKept (Node.decideByName keep))).absent.map Site.emptied).map
        (Site.mapOptions change) := by
    rw [cuts, ← Forest.absent_mark_map (Site.isKept_emptied keep)]
    exact (congrArg (fun f => (Forest.mark (Site.isKept (Node.decideByName keep)) f).absent)
      h).trans hoptions
  calc (∃ site ∈ (resolver.cuts (Node.decideByName keep)).absent, site.Names url)
    _ ↔ ∃ site ∈ (resolver.cuts (Node.decideByName keep)).absent.map Site.emptied,
          site.Names url := by
        rw [Site.exists_names_map fun site => site.names_emptied url]
    _ ↔ ∃ site ∈ (f.mark (Site.isKept (Node.decideByName keep))).absent, site.Names url := by
        rw [habsent, Site.exists_names_map fun site => site.names_mapOptions change url,
          Site.exists_names_map fun site => site.names_emptied url]

/-- Two filters by kind and name, one after the other, come to the filter by both decisions. -/
theorem filterBy_and (resolver : Resolver) (first second : NodeKind → String → Bool) :
    (resolver.filterBy (Node.decideByName first)).filterBy (Node.decideByName second) =
      resolver.filterBy
        (Node.decideByName fun kind name => first kind name && second kind name) := by
  have hfirst := resolver.outline_filterBy (Node.decideByName first)
  -- a field that is absent in the end is absent after the first filter or after the second
  have hnotes : resolver.notes
      (Node.decideByName fun kind name => first kind name && second kind name) =
      fun url => resolver.notes (Node.decideByName first) url ||
        (resolver.filterBy (Node.decideByName first)).notes (Node.decideByName second) url := by
    funext url
    rw [Bool.eq_iff_iff, Bool.or_eq_true, notes_iff, notes_iff, notes_iff,
      names_absent_cuts second hfirst, ← exists_or]
    refine exists_congr fun site => ?_
    rw [← or_and_right]
    exact and_congr_left' (Forest.mem_absent_mark_both _ _ _ _)
  have hremains := Forest.remains_mark_remains_mark (Site.isKept (Node.decideByName first))
    (Site.isKept (Node.decideByName second)) resolver.forest
  have hcuts : (resolver.cuts
      (Node.decideByName fun kind name => first kind name && second kind name)).remains =
      ((resolver.cuts (Node.decideByName first)).remains.mark
        (Site.isKept (Node.decideByName second))).remains := hremains.symm
  refine eq_of_outline_eq ?_
  rw [outline_filterBy, outline_remains_cuts second hfirst, outline_filterBy, hnotes, hcuts,
    Forest.mapOptions, Forest.mapOptions, Forest.map_map,
    funext (Site.mapOptions_without_without _ _), Forest.mapOptions]

/-- **Filters compose and commute.** Of two decisions that look at the kind and the name of a node
only, the one filter after the other gives the schema that is given by filtering once by both, and
so it does not matter which of them comes first.

**Proof sketch.** A resolver is determined by its outline (`eq_of_outline_eq`). The second filter
marks its cuts in what the first has kept, and a decision by kind and name sees neither what the
first has cut below a node nor which options it has taken: the nodes that remain are those that
remain of both decisions, and a field that is absent in the end has been cut by the one or by the
other. So the urls noted together are those that the filter by both notes, and to leave out options
by the one and then by the other is to leave them out by either. -/
theorem filterBy_filterBy_byName (resolver : Resolver) (first second : NodeKind → String → Bool) :
    (resolver.filterBy (Node.decideByName first)).filterBy (Node.decideByName second) =
        resolver.filterBy
          (Node.decideByName fun kind name => first kind name && second kind name) ∧
      (resolver.filterBy (Node.decideByName first)).filterBy (Node.decideByName second) =
        (resolver.filterBy (Node.decideByName second)).filterBy (Node.decideByName first) := by
  refine ⟨filterBy_and resolver first second, ?_⟩
  calc (resolver.filterBy (Node.decideByName first)).filterBy (Node.decideByName second)
    _ = resolver.filterBy
          (Node.decideByName fun kind name => first kind name && second kind name) :=
        filterBy_and resolver first second
    _ = resolver.filterBy
          (Node.decideByName fun kind name => second kind name && first kind name) := by
        simp only [Bool.and_comm]
    _ = (resolver.filterBy (Node.decideByName second)).filterBy (Node.decideByName first) :=
        (filterBy_and resolver second first).symm

end Resolver

end SchemaForge
