import SchemaForge.Proofs.Generation.FirstFault
set_option autoImplicit false

/-!
# Setting an option of a plugin

If the names of the plugins are different and have no colons, the key of an option is the name of
its plugin, a colon and the name of the option, and no other option has this key, even if there are
colons in the names of options. Values that suit the option can be added under this key, and the
plugin is given them under the name of the option. To all other plugins nothing changes.

## Main results

* `SchemaForge.GenerationOptions.get?_appendAll_self`,
  `SchemaForge.GenerationOptions.get?_appendAll_of_ne` — what is found after values have been added.
* `SchemaForge.validateOptions_appendAll` — options stay in order.
* `SchemaForge.declared_option_reaches_plugin` — an option that is declared can be set, and reaches
  its plugin only.
-/

namespace SchemaForge

namespace GenerationOptions

variable {options : GenerationOptions} {key other : String} {values : List String}

/-! ### Adding values -/

/-- A value that is added is the last one of its key. -/
theorem get?_append (options : GenerationOptions) (key value other : String) :
    (options.append key value).values.get? other =
      if other = key then some (options.getAll key ++ [value]) else options.values.get? other :=
  options.values.get?_insert key (options.getAll key ++ [value]) other

/-- The values of a key after a value has been added. -/
theorem getAll_append (options : GenerationOptions) (key value : String) :
    (options.append key value).getAll key = options.getAll key ++ [value] := by
  rw [getAll, get?_append, if_pos rfl, Option.getD_some]

/-- Values that are added leave the other keys as they are. -/
theorem get?_appendAll_of_ne (h : other ≠ key) (values : List String) :
    (options.appendAll key values).values.get? other = options.values.get? other := by
  induction values generalizing options with
  | nil => rfl
  | cons value values ih =>
    have hstep : options.appendAll key (value :: values) =
        (options.append key value).appendAll key values := rfl
    rw [hstep, ih, get?_append, if_neg h]

/-- Values that are added come behind those of the key. -/
theorem get?_appendAll_self (h : values ≠ []) :
    (options.appendAll key values).values.get? key = some (options.getAll key ++ values) := by
  induction values generalizing options with
  | nil => exact absurd rfl h
  | cons value values ih =>
    have hstep : options.appendAll key (value :: values) =
        (options.append key value).appendAll key values := rfl
    rw [hstep]
    by_cases hlast : values = []
    · subst hlast
      exact (get?_append options key value key).trans (if_pos rfl)
    · rw [ih hlast, getAll_append, List.append_assoc, List.singleton_append]

/-- The entries after values have been added under a new key are the old ones and the new one. -/
theorem mem_raw_appendAll_iff (hnew : options.values.get? key = none) (h : values ≠ [])
    {more : List String} :
    (other, more) ∈ (options.appendAll key values).raw ↔
      (other = key ∧ more = values) ∨ (other, more) ∈ options.raw := by
  have hnone : options.getAll key = [] := by rw [getAll, hnew, Option.getD_none]
  rw [mem_raw_iff, mem_raw_iff]
  by_cases hkey : other = key
  · subst hkey
    rw [get?_appendAll_self h, hnone, hnew]
    simp [eq_comm]
  · rw [get?_appendAll_of_ne hkey]
    simp [hkey]

/-! ### Keys of plugins -/

/-- The keys of plugins with different names and without colons in them are different. -/
theorem eq_of_keys_eq {plugin name a b : String} (hplugin : ':' ∉ plugin.toList)
    (hname : ':' ∉ name.toList) (h : plugin ++ ":" ++ a = name ++ ":" ++ b) :
    plugin = name ∧ a = b := by
  have hsplit : splitKey? (plugin ++ ":" ++ a) = some (plugin, a) := splitKey?_append hplugin
  rw [h, splitKey?_append hname, Option.some.injEq, Prod.mk.injEq] at hsplit
  exact ⟨hsplit.1.symm, hsplit.2.symm⟩

/-- A key of a plugin is not a key without a colon. -/
theorem ne_of_no_colon {plugin own : String} (h : ':' ∉ key.toList) :
    key ≠ plugin ++ ":" ++ own := by
  rintro rfl
  simp at h

/-- A plugin cannot tell whether values have been added under the key of another one. -/
theorem alikeFor_appendAll {plugin name own : String} (hplugin : ':' ∉ plugin.toList)
    (hname : ':' ∉ name.toList) (hne : name ≠ plugin) (options : GenerationOptions)
    (values : List String) :
    AlikeFor name (options.appendAll (plugin ++ ":" ++ own) values) options := by
  have hcycles : packageCyclesKey ≠ plugin ++ ":" ++ own := ne_of_no_colon (by decide)
  have houtput : outputKey ≠ plugin ++ ":" ++ own := ne_of_no_colon (by decide)
  refine ⟨fun key => get?_appendAll_of_ne (fun h => hne ?_) values, ?_, ?_⟩
  · exact (eq_of_keys_eq hname hplugin h).1
  · rw [get?, getAll, get?_appendAll_of_ne hcycles, get?, getAll]
  · rw [get?, getAll, get?_appendAll_of_ne houtput, get?, getAll]

end GenerationOptions

open GenerationOptions

variable {plugins : List Metadata} {plugin : Metadata} {descriptor : OptionDescriptor}
  {options : GenerationOptions} {values : List String}

/-! ### Options in order -/

/-- Where names are different each plugin is the first one of its name. -/
theorem isFirstNamed_of_mem {α : Type} {nameOf : α → String} {list : List α} {a : α}
    (hdistinct : (list.map nameOf).Nodup) (h : a ∈ list) : IsFirstNamed nameOf list a := by
  obtain ⟨before, after, rfl⟩ := List.append_of_mem h
  refine ⟨before, after, rfl, fun other hother heq => ?_⟩
  rw [List.map_append, List.nodup_append] at hdistinct
  exact hdistinct.2.2 _ (List.mem_map_of_mem hother) _ (List.mem_map_of_mem List.mem_cons_self) heq

/-- Options to which a new key is added with its values are in order if they were so before and the
values suit the option that the key belongs to. -/
theorem validateOptions_appendAll {key : String} (hvalid : validateOptions plugins options = .ok ())
    (hbelongs : BelongsTo plugins key descriptor) (hsuits : descriptor.Suits values)
    (hvalues : values ≠ []) (hnew : options.values.get? key = none) :
    validateOptions plugins (options.appendAll key values) = .ok () := by
  rw [validateOptions_eq_ok_iff_inOrder] at hvalid ⊢
  intro other more hmem
  rcases (mem_raw_appendAll_iff hnew hvalues).1 hmem with ⟨rfl, rfl⟩ | hold
  · exact ⟨descriptor, hbelongs, hsuits⟩
  · exact hvalid other more hold

/-- **Declared options can be set.** Let the names of the plugins be pairwise different and without
colons, and let a plugin declare an option, as the first one of its name. The name may have colons,
but it is not empty, nor one of the two keys that the run sets for each plugin. Let there be values
that suit the option, at least one, and options of a run that are in order and have nothing under
the key of the option, which is the name of the plugin, a colon and the name of the option. Then the
options are still in order when the values are added under this key; the plugin is given exactly
these values under the name of the option; and every other plugin is given what it was given before.

**Proof sketch.** The name of the plugin has no colon, so the key is cut behind it and belongs to
the option, and all other entries are as they were. The plugin finds the values as it finds
everything behind its name and a colon (`GenerationOptions.get?_ownOptions`). The keys of another
plugin begin with another name, and the keys of the run have no colon, so the other plugin cannot
tell the difference (`GenerationOptions.scopedFor_eq_of_alikeFor`). -/
theorem declared_option_reaches_plugin
    (hdistinct : (plugins.map Metadata.name).Nodup)
    (hcolon : ∀ other ∈ plugins, ':' ∉ other.name.toList) (hplugin : plugin ∈ plugins)
    (hdescriptor : IsFirstNamed OptionDescriptor.name plugin.options descriptor)
    (hname : descriptor.name ≠ "") (hcycles : descriptor.name ≠ packageCyclesKey)
    (houtput : descriptor.name ≠ outputKey) (hvalues : values ≠ [])
    (hsuits : descriptor.Suits values) (hvalid : validateOptions plugins options = .ok ())
    (hnew : options.values.get? (plugin.name ++ ":" ++ descriptor.name) = none) :
    let added := options.appendAll (plugin.name ++ ":" ++ descriptor.name) values
    validateOptions plugins added = .ok () ∧
      (added.scopedFor plugin.name).values.get? descriptor.name = some values ∧
      ∀ other ∈ plugins, other ≠ plugin →
        added.scopedFor other.name = options.scopedFor other.name := by
  intro added
  have hbelongs : BelongsTo plugins (plugin.name ++ ":" ++ descriptor.name) descriptor :=
    .plugin (hcolon plugin hplugin) (isFirstNamed_of_mem hdistinct hplugin) hdescriptor
  refine ⟨validateOptions_appendAll hvalid hbelongs hsuits hvalues hnew, ?_, ?_⟩
  · have hnone : options.getAll (plugin.name ++ ":" ++ descriptor.name) = [] := by
      rw [getAll, hnew, Option.getD_none]
    rw [get?_scopedFor hcycles houtput, get?_ownOptions, if_neg hname,
      get?_appendAll_self hvalues, hnone, List.nil_append]
  · intro other hother hne
    have hnames : other.name ≠ plugin.name := fun h =>
      hne (List.inj_on_of_nodup_map hdistinct hother hplugin h)
    exact scopedFor_eq_of_alikeFor
      (alikeFor_appendAll (hcolon plugin hplugin) (hcolon other hother) hnames options values)

/-- Two plugins, of which the first declares an option with a colon in its name. -/
def styledPlugins : List Metadata :=
  [processorWith "js" [(OptionDescriptor.single "css:size" "" .int).repeatable],
    processorWith "css" [.single "size" "" .int]]

/-- The option with the colon is set for the one plugin, and the option of the other one, whose name
is a part of the key, is as it was. -/
theorem declared_option_reaches_styledPlugins :
    let options : GenerationOptions := .ofPairs [("css:size", "7"), ("gen_output", "out")]
    let added := options.appendAll "js:css:size" ["1", "2"]
    validateOptions styledPlugins options = .ok () ∧
      validateOptions styledPlugins added = .ok () ∧
      (added.scopedFor "js").values.get? "css:size" = some ["1", "2"] ∧
      added.scopedFor "css" = options.scopedFor "css" := by
  intro options added
  have hvalid : validateOptions styledPlugins options = .ok () :=
    validateOptions_eq_ok_iff.2 (by decide)
  have hset := @declared_option_reaches_plugin styledPlugins _
    (OptionDescriptor.single "css:size" "" .int).repeatable options ["1", "2"] (by decide)
    (by decide) List.mem_cons_self ⟨[], [], rfl, nofun⟩ (by decide) (by decide) (by decide)
    (by decide) ⟨by decide, .inl rfl⟩ hvalid (by decide)
  exact ⟨hvalid, hset.1, hset.2.1, hset.2.2 (processorWith "css" [.single "size" "" .int])
    (by decide) (by decide)⟩

end SchemaForge
