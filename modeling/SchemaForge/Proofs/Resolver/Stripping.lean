import Mathlib.Data.List.Forall2
import SchemaForge.Proofs.Resolver.Survivors
set_option autoImplicit false

/-!
# The options that survive a filter

The nodes that survive a filter lose the options of the fields that are absent, and those parts of
option values that are about such fields. They lose nothing else.

## Main definitions

* `SchemaForge.OptionValue.Loses`, `SchemaForge.Options.Lose` — a value or a list of options without
  what has to do with certain fields.

## Main results

* `SchemaForge.Options.lose_without` — what is taken out of options.
* `SchemaForge.Resolver.filter_strips_absent` — the options of what a filter keeps.
-/

namespace SchemaForge

/-! ### Losing members -/

mutual

/-- The second value is the first one without the message entries, at any depth, of members that
are gone. -/
inductive OptionValue.Loses (gone : MemberUrl → Prop) : OptionValue → OptionValue → Prop where
  | raw (text : String) : Loses gone (.raw text) (.raw text)
  | rawMap (entries : List (String × String)) : Loses gone (.rawMap entries) (.rawMap entries)
  | messageMap {before after : List (MemberUrl × OptionValue)}
    (h : OptionValue.EntriesLose gone before after) :
    Loses gone (.messageMap before) (.messageMap after)

/-- The same for the entries of a message, which stay in their order. -/
inductive OptionValue.EntriesLose (gone : MemberUrl → Prop) :
    List (MemberUrl × OptionValue) → List (MemberUrl × OptionValue) → Prop where
  | nil : EntriesLose gone [] []
  /-- The entry of a member that is gone goes. -/
  | drop {url : MemberUrl} {value : OptionValue} {before after : List (MemberUrl × OptionValue)}
    (h : gone url) (hrest : EntriesLose gone before after) :
    EntriesLose gone ((url, value) :: before) after
  /-- Any other entry stays, and its value loses in turn. -/
  | keep {url : MemberUrl} {value left : OptionValue}
    {before after : List (MemberUrl × OptionValue)} (h : ¬ gone url)
    (hvalue : OptionValue.Loses gone value left) (hrest : EntriesLose gone before after) :
    EntriesLose gone ((url, value) :: before) ((url, left) :: after)

end

/-- The second list of options is the first one without the options of fields that are gone, in
their order. The value of an option that is left loses the entries of members that are gone. -/
inductive Options.Lose (gone : MemberUrl → Prop) : Options → Options → Prop where
  | nil : Lose gone [] []
  /-- The option of a field that is gone goes. -/
  | drop {option : SchemaOption} {before after : Options} (h : gone option.field)
    (hrest : Lose gone before after) : Lose gone (option :: before) after
  /-- Any other option stays, with what its value loses. -/
  | keep {option : SchemaOption} {left : Option OptionValue} {before after : Options}
    (h : ¬ gone option.field) (hvalue : Option.Rel (OptionValue.Loses gone) option.value left)
    (hrest : Lose gone before after) :
    Lose gone (option :: before) ({ option with value := left } :: after)

section Without

variable {removed : MemberUrl → Bool} {gone : MemberUrl → Prop}

namespace OptionValue

mutual

theorem loses_without (h : ∀ url, removed url = true ↔ gone url) :
    ∀ value : OptionValue, value.Loses gone (value.without removed)
  | .raw text => .raw text
  | .rawMap entries => .rawMap entries
  | .messageMap entries => .messageMap (entriesLose_entriesWithout h entries)

theorem entriesLose_entriesWithout (h : ∀ url, removed url = true ↔ gone url) :
    ∀ entries : List (MemberUrl × OptionValue),
      EntriesLose gone entries (entriesWithout removed entries)
  | [] => .nil
  | (url, value) :: entries => by
    rw [entriesWithout]
    split
    · rename_i hremoved
      exact .drop ((h url).1 hremoved) (entriesLose_entriesWithout h entries)
    · rename_i hkept
      exact .keep (mt (h url).2 hkept) (loses_without h value)
        (entriesLose_entriesWithout h entries)

end

end OptionValue

/-- **Options.** What is taken out of options is what has to do with fields that are gone. -/
theorem Options.lose_without (h : ∀ url, removed url = true ↔ gone url) (options : Options) :
    Lose gone options (options.without removed) := by
  induction options with
  | nil => exact .nil
  | cons option options ih =>
    by_cases hfield : removed option.field
    · have hwithout : Options.without removed (option :: options) = without removed options := by
        simp [without, hfield]
      rw [hwithout]
      exact .drop ((h option.field).1 hfield) ih
    · have hwithout : Options.without removed (option :: options) =
          option.without removed :: without removed options := by
        simp [without, hfield]
      have hvalue : Option.Rel (OptionValue.Loses gone) option.value
          (option.value.map fun value => value.without removed) := by
        cases option.value with
        | none => exact .none
        | some value => exact .some (OptionValue.loses_without h value)
      rw [hwithout]
      exact .keep (mt (h option.field).2 hfield) hvalue ih

end Without

/-! ### The options of what is kept -/

namespace Resolver

variable {σ : Type} (resolver : Resolver) (keeper : Keeper σ) (memory : σ)

/-- The nodes that are kept, one by one. -/
theorem forall₂_emptied_filter :
    List.Forall₂
      (fun before after : Node => after.emptied = before.emptied.mapOptions
        (Options.without (resolver.cut keeper memory).2.removed.contains))
      (keeper.judge resolver.forest memory).1.remains.nodes
      ((resolver.filter keeper memory).1.files.flatMap SchemaFile.nodes) := by
  have hnodes := map_emptied_nodes_filter resolver keeper memory
  rw [List.map_map, ← List.forall₂_eq_eq_eq, List.forall₂_map_left_iff,
    List.forall₂_map_right_iff] at hnodes
  exact hnodes.flip

/-- **What survives.** Let a filter keep some of the nodes of a schema. The others are absent: those
that its keeper rejects, and all below them. The urls that are gone are those under which the fields
among them are known, as members of the message around them or of the type that is extended. Every
node that is kept is what it was, apart from what is below it and from its options; and its options
are those that it had, in the same order, without the options of fields that are gone and without
the entries, at any depth of their values, of members that are gone.

**Proof sketch.** The urls that the filter notes are those that are gone. Its second pass takes what
has to do with noted urls out of the options of every node that is kept. -/
theorem filter_strips_absent {σ : Type} (resolver : Resolver) (keeper : Keeper σ) (memory : σ) :
    let cutting := (keeper.judge resolver.forest memory).1
    let gone (url : MemberUrl) : Prop := ∃ site ∈ cutting.absent, site.Names url
    cutting.whole = resolver.forest ∧
      (cutting.absent ++ cutting.remains.labels).Perm resolver.forest.labels ∧
      List.Forall₂
        (fun before after : Node => after.bare = before.bare ∧
          Option.Rel (Options.Lose gone) before.options? after.options?)
        cutting.remains.nodes
        ((resolver.filter keeper memory).1.files.flatMap SchemaFile.nodes) := by
  intro cutting gone
  have hwhole : cutting.whole = resolver.forest :=
    Forest.whole_judge keeper.askAt resolver.forest memory
  refine ⟨hwhole, hwhole ▸ cutting.absent_perm, ?_⟩
  have hgone : ∀ url, (resolver.cut keeper memory).2.removed.contains url = true ↔ gone url := by
    intro url
    rw [List.contains_iff_mem]
    exact mem_removed_cut resolver keeper memory url
  refine (forall₂_emptied_filter resolver keeper memory).imp fun before after hafter => ⟨?_, ?_⟩
  · rw [Node.bare, hafter, Node.mapOptions_mapOptions]
    rfl
  · rw [← after.options?_emptied, hafter, Node.options?_mapOptions, Node.options?_emptied]
    cases before.options? with
    | none => exact .none
    | some options => exact .some (Options.lose_without hgone options)

end Resolver

end SchemaForge
