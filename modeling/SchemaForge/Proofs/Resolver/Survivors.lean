import SchemaForge.Proofs.Resolver.Cuts
import SchemaForge.Proofs.Schema.Unreferenced
set_option autoImplicit false

/-!
# The nodes that survive a filter

A filter asks its keeper about the nodes of a schema from the top down, and keeps the nodes that are
accepted. Apart from what is below them and from their options they are what they were. Their
options change only if some field has disappeared.

## Main results

* `SchemaForge.SchemaFile.strip_false` — where nothing is removed, stripping changes nothing.
* `SchemaForge.Resolver.outline_filter` — the forest of what a filter keeps.
* `SchemaForge.Resolver.filter_keeps_accepted` — which nodes the keeper is asked about, and which
  nodes are kept.
-/

namespace SchemaForge

/-! ### Stripping nothing -/

theorem Field.strip_false (field : Field) : field.strip (fun _ => false) = field := by
  rw [strip, Options.without_false]

theorem OneOf.strip_false (group : OneOf) : group.strip (fun _ => false) = group := by
  rw [strip, Options.without_false, List.map_id'' Field.strip_false]

theorem Extend.strip_false (block : Extend) : block.strip (fun _ => false) = block := by
  rw [strip, List.map_id'' Field.strip_false]

theorem EnumConstant.strip_false (constant : EnumConstant) :
    constant.strip (fun _ => false) = constant := by
  rw [strip, Options.without_false]

theorem Rpc.strip_false (rpc : Rpc) : rpc.strip (fun _ => false) = rpc := by
  rw [strip, Options.without_false]

theorem Service.strip_false (service : Service) : service.strip (fun _ => false) = service := by
  rw [strip, Options.without_false, List.map_id'' Rpc.strip_false]

theorem TypeBody.strip_false (body : TypeBody) : body.strip (fun _ => false) = body := by
  cases body with
  | message fields oneOfs =>
    rw [strip, List.map_id'' Field.strip_false, List.map_id'' OneOf.strip_false]
  | enumeration constants => rw [strip, List.map_id'' EnumConstant.strip_false]
  | enclosing => rfl

theorem TypeHead.strip_false (head : TypeHead) : head.strip (fun _ => false) = head := by
  rw [strip, Options.without_false, List.map_id'' Extend.strip_false, TypeBody.strip_false]

mutual

theorem TypeDecl.strip_false : ∀ type : TypeDecl, type.strip (fun _ => false) = type
  | ⟨head, nested⟩ => by
    rw [TypeDecl.strip, TypeHead.strip_false, TypeDecl.stripAll_false nested]

theorem TypeDecl.stripAll_false :
    ∀ types : List TypeDecl, TypeDecl.stripAll (fun _ => false) types = types
  | [] => rfl
  | type :: types => by
    rw [TypeDecl.stripAll, TypeDecl.strip_false type, TypeDecl.stripAll_false types]

end

/-- Where nothing is removed, stripping changes nothing. -/
theorem SchemaFile.strip_false (file : SchemaFile) : file.strip (fun _ => false) = file := by
  rw [strip, Options.without_false, List.map_id'' Service.strip_false,
    List.map_id'' Extend.strip_false, TypeDecl.stripAll_false]

/-! ### The forest of what is kept -/

namespace Resolver

variable {σ : Type} (resolver : Resolver) (keeper : Keeper σ) (memory : σ)

/-- The urls noted by a filter are those of the fields that are absent. -/
theorem mem_removed_cut (url : MemberUrl) :
    url ∈ (resolver.cut keeper memory).2.removed ↔
      ∃ site ∈ (keeper.judge resolver.forest memory).1.absent, site.Names url := by
  have hremoved := (@cuts_cut σ keeper resolver).removed ⟨memory, []⟩ url
  rwa [or_iff_right List.not_mem_nil] at hremoved

/-- Where no field is absent no url is noted. -/
theorem removed_cut_eq_nil
    (h : ∀ site ∈ (keeper.judge resolver.forest memory).1.absent, site.node.kind ≠ .field) :
    (resolver.cut keeper memory).2.removed = [] := by
  rw [List.eq_nil_iff_forall_not_mem]
  intro url hurl
  obtain ⟨site, hsite, field, hfield, -⟩ := (mem_removed_cut resolver keeper memory url).1 hurl
  exact h site hsite (congrArg Node.kind hfield)

/-- The keeper remembers in the end what it remembers when it has judged the forest. -/
theorem memory_filter :
    (resolver.filter keeper memory).2 = (keeper.judge resolver.forest memory).2 := by
  have hmemory := (@cuts_cut σ keeper resolver).memory ⟨memory, []⟩
  unfold filter
  dsimp only
  split
  · exact hmemory
  · exact hmemory

/-- The files are stripped of the noted urls, also where there are none and no pass is run. -/
theorem files_filter :
    (resolver.filter keeper memory).1.files =
      (resolver.cut keeper memory).1.map
        (SchemaFile.strip (resolver.cut keeper memory).2.removed.contains) := by
  unfold filter
  dsimp only
  split
  · rename_i hempty
    have hnone : ([] : List MemberUrl).contains = fun _ => false := rfl
    rw [List.isEmpty_iff.1 hempty, hnone, List.map_id'' SchemaFile.strip_false]
  · rfl

/-- **The forest that is kept.** The nodes that a filter keeps are those that are kept when the
forest is judged, by themselves, with their options without those of the fields that are noted. -/
theorem outline_filter :
    (resolver.filter keeper memory).1.forest.outline =
      (keeper.judge resolver.forest memory).1.remains.outline.mapOptions
        (Options.without (resolver.cut keeper memory).2.removed.contains) := by
  have hcut := (@cuts_cut σ keeper resolver).outline ⟨memory, []⟩
  rw [forest, files_filter, Forest.outline_ofAll_map (SchemaFile.outline_strip _)]
  exact congrArg (Forest.mapOptions _) hcut

/-- The nodes that a filter keeps are those that are kept when the forest is judged. -/
theorem map_emptied_nodes_filter :
    ((resolver.filter keeper memory).1.files.flatMap SchemaFile.nodes).map Node.emptied =
      ((keeper.judge resolver.forest memory).1.remains.nodes.map Node.emptied).map
        (Node.mapOptions (Options.without (resolver.cut keeper memory).2.removed.contains)) := by
  rw [← nodes_forest, ← Forest.nodes_outline, outline_filter, Forest.nodes_mapOptions,
    Forest.nodes_outline]

/-- So are they apart from their options, whatever options have gone. -/
theorem map_bare_nodes_filter :
    ((resolver.filter keeper memory).1.files.flatMap SchemaFile.nodes).map Node.bare =
      (keeper.judge resolver.forest memory).1.remains.nodes.map Node.bare := by
  have hemptied := congrArg (List.map (Node.mapOptions fun _ => []))
    (map_emptied_nodes_filter resolver keeper memory)
  simp only [List.map_map, Function.comp_def, Node.mapOptions_mapOptions] at hemptied
  exact hemptied

/-- If no field is absent they are so with their options. -/
theorem map_emptied_nodes_filter_of_no_field
    (h : ∀ site ∈ (keeper.judge resolver.forest memory).1.absent, site.node.kind ≠ .field) :
    ((resolver.filter keeper memory).1.files.flatMap SchemaFile.nodes).map Node.emptied =
      (keeper.judge resolver.forest memory).1.remains.nodes.map Node.emptied := by
  have hwithout : Options.without ([] : List MemberUrl).contains = id :=
    funext Options.without_false
  have hnode : Node.mapOptions id = id := funext Node.mapOptions_id
  rw [map_emptied_nodes_filter, removed_cut_eq_nil resolver keeper memory h, hwithout, hnode,
    List.map_id]

/-- Then the second pass changes nothing. -/
theorem files_filter_of_no_field
    (h : ∀ site ∈ (keeper.judge resolver.forest memory).1.absent, site.node.kind ≠ .field) :
    (resolver.filter keeper memory).1.files = (resolver.cut keeper memory).1 := by
  unfold filter
  dsimp only
  rw [removed_cut_eq_nil resolver keeper memory h]
  rfl

/-- **What a filter keeps.** Let the keeper of a filter decide in any way, and remember what it
likes. In the forest of the schema the nodes that it rejects are cut. It is asked about the nodes
that have no cut above them, about each of them once, and in the order of the forest; it accepts
those that are not cut, and rejects those that are. The nodes of what the filter keeps are the
accepted ones, in the same order, apart from what is below them and from their options. If no field
is absent their options are the same too, and it makes no difference whether the second pass is run.
If the keeper accepts everything, nothing is absent and all nodes are kept with their options.

**Proof sketch.** The work of the filter on a schema, part by part, comes to the same as judging its
forest with the keeper. A keeper that writes down its calls tells which questions these are. -/
theorem filter_keeps_accepted {σ : Type} (resolver : Resolver) (keeper : Keeper σ) (memory : σ) :
    let kept := (resolver.filter keeper memory).1
    let first := resolver.cut keeper memory
    let nodes := kept.files.flatMap SchemaFile.nodes
    let cutting := (keeper.judge resolver.forest memory).1
    let last := (keeper.judge resolver.forest memory).2
    let calls := cutting.calls.map fun call => (call.1.node, call.2)
    let accepted := (calls.filter Prod.snd).map Prod.fst
    cutting.whole = resolver.forest ∧
      (resolver.filter keeper memory).2 = last ∧
      (resolver.filter keeper.traced (memory, [])).2 = (last, calls) ∧
      (calls.map Prod.fst).Sublist (resolver.files.flatMap SchemaFile.nodes) ∧
      nodes.map Node.bare = accepted.map Node.bare ∧
      ((∀ site ∈ cutting.absent, site.node.kind ≠ .field) →
        nodes.map Node.emptied = accepted.map Node.emptied ∧
        kept.files = first.1 ∧
        kept.files = first.1.map (SchemaFile.strip first.2.removed.contains)) ∧
      ((∀ call ∈ calls, call.2 = true) → cutting.absent = [] ∧
        nodes.map Node.emptied =
          (resolver.files.flatMap SchemaFile.nodes).map Node.emptied) := by
  intro kept first nodes cutting last calls accepted
  have hwhole : cutting.whole = resolver.forest :=
    Forest.whole_judge keeper.askAt resolver.forest memory
  have haccepted : accepted = cutting.remains.nodes := by
    simp only [accepted, calls, Forest.nodes, Cutting.labels_remains, List.filter_map,
      List.map_map]
    rfl
  refine ⟨hwhole, memory_filter resolver keeper memory, ?_, ?_, ?_, fun hfields => ?_,
    fun hall => ?_⟩
  · -- the keeper that writes down its calls
    rw [memory_filter, Keeper.judge_traced]
    rfl
  · -- the order of the calls
    have hsublist := (Cutting.calls_sublist cutting).map Site.node
    rw [hwhole, ← Forest.nodes, nodes_forest, List.map_map] at hsublist
    rwa [List.map_map]
  · rw [haccepted]
    exact map_bare_nodes_filter resolver keeper memory
  · -- no field is absent
    rw [haccepted]
    exact ⟨map_emptied_nodes_filter_of_no_field resolver keeper memory hfields,
      files_filter_of_no_field resolver keeper memory hfields,
      files_filter resolver keeper memory⟩
  · -- everything is accepted, so nothing is absent
    have haccept : ∀ call ∈ cutting.calls, call.2 = true := fun call hcall =>
      hall (call.1.node, call.2) (List.mem_map.2 ⟨call, hcall, rfl⟩)
    have habsent : cutting.absent = [] := Cutting.absent_eq_nil haccept
    have hnodes := map_emptied_nodes_filter_of_no_field resolver keeper memory fun site hsite => by
      rw [show (keeper.judge resolver.forest memory).1.absent = [] from habsent] at hsite
      cases hsite
    rw [show (keeper.judge resolver.forest memory).1.remains = resolver.forest from
      (Cutting.remains_eq_whole haccept).trans hwhole, nodes_forest] at hnodes
    exact ⟨habsent, hnodes⟩

/-! ### A keeper with a memory -/

/-- A file with a service of two rpcs and an enumeration of two constants. -/
def ordersResolver : Resolver :=
  let rpc (name : String) : Rpc := ⟨name, ⟨false, .ack⟩, ⟨false, .ack⟩, [], "", .unknown⟩
  let constant (name : String) (tag : Int32) : EnumConstant := ⟨name, tag, [], "", .unknown⟩
  let state : TypeDecl := ⟨⟨"State", "", ⟨"acme.State"⟩, [], .unknown, [],
    .enumeration [constant "OPEN" 0, constant "DONE" 1]⟩, []⟩
  ⟨[⟨"orders", ⟨"acme"⟩, [],
    [⟨"Orders", [rpc "Place", rpc "Cancel"], [], ⟨"acme.Orders"⟩, .unknown⟩], [], .unknown, [],
    [state]⟩]⟩

/-- The keeper that rejects the node about which it is asked behind so many others. -/
def rejecting (index : Nat) : Keeper Nat := fun _ _ count => (count != index, count + 1)

/-- It is not asked about what is below the node that it rejects. -/
theorem filter_ordersResolver :
    let kept := ordersResolver.filter (rejecting 4) 0
    let nodes := (kept.1.files.flatMap SchemaFile.nodes).map Node.emptied
    nodes.map Node.name = ["orders", "Orders", "Place", "Cancel"] ∧ kept.2 = 5 ∧
      kept.1.files = (ordersResolver.cut (rejecting 4) 0).1 ∧
      ((rejecting 9).judge ordersResolver.forest 0).1.absent = [] := by
  intro kept nodes
  obtain ⟨-, hmemory, -, -, -, hkept, -⟩ := ordersResolver.filter_keeps_accepted (rejecting 4) 0
  obtain ⟨-, -, -, -, -, -, hall⟩ := ordersResolver.filter_keeps_accepted (rejecting 9) 0
  obtain ⟨hnodes, hfiles, -⟩ := hkept (by decide)
  refine ⟨?_, hmemory.trans (by decide), hfiles, (hall (by decide)).1⟩
  rw [show nodes = _ from hnodes]
  decide

end Resolver

end SchemaForge
