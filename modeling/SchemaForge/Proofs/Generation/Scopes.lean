import SchemaForge.Generation.Validation
import SchemaForge.Proofs.Generation.Isolation
set_option autoImplicit false

/-!
# Who answers for the options of a plugin

A plugin is given the keys that begin with its name and a colon. Whether a key is in order is asked
of the first plugin whose name stands before the first colon of the key. For a plugin with a colon
in its name, and for one behind another plugin of its name, this is some other plugin, which may
declare an option that the plugin itself does not know.

## Main definitions

* `SchemaForge.Metadata.Allows` — a plugin declares an option that the values suit.

## Main results

* `SchemaForge.validateOptions_eq_ok_iff` — what it means for options to be in order.
* `SchemaForge.allows_of_scopedFor` — who answers for a key that a plugin is given.
-/

namespace SchemaForge

/-! ### Keys -/

/-- The cut of a key is at its first colon. -/
theorem splitKey?_append {name own : String} (h : ':' ∉ name.toList) :
    splitKey? (name ++ ":" ++ own) = some (name, own) := by
  have hchars : Text.splitFirstChars ':' (name ++ ":" ++ own).toList =
      some (name.toList, own.toList) :=
    Text.splitFirstChars_eq_some_iff.2 ⟨by simp, h⟩
  rw [splitKey?, Text.splitFirst, hchars]
  simp

/-- A key with a colon is cut. -/
theorem exists_splitKey? (name own : String) :
    ∃ before behind, splitKey? (name ++ ":" ++ own) = some (before, behind) := by
  cases hchars : Text.splitFirstChars ':' (name ++ ":" ++ own).toList with
  | some parts =>
    exact ⟨String.ofList parts.1, String.ofList parts.2, by
      rw [splitKey?, Text.splitFirst, hchars, Option.map_some]⟩
  | none =>
    have hcolon : ':' ∈ (name ++ ":" ++ own).toList := by simp
    exact absurd hcolon (Text.splitFirstChars_eq_none_iff.1 hchars)

/-! ### Options in order -/

/-- The values suit the option: each is of its kind, and there are several only if it may be given
more than once. -/
def OptionDescriptor.Suits (descriptor : OptionDescriptor) (values : List String) : Prop :=
  (∀ value ∈ values, descriptor.kind.accepts value = true) ∧
    (descriptor.isRepeatable = true ∨ values.length ≤ 1)

/-- The plugin declares an option of this name, and the values suit it. -/
def Metadata.Allows (plugin : Metadata) (key : String) (values : List String) : Prop :=
  ∃ descriptor, plugin.options.find? (·.name == key) = some descriptor ∧ descriptor.Suits values

/-- Values without a fault suit the option. -/
theorem OptionDescriptor.fault?_eq_none_iff (descriptor : OptionDescriptor) (key : String)
    (values : List String) : descriptor.fault? key values = none ↔ descriptor.Suits values := by
  have hkind : (values.find? fun value => !descriptor.kind.accepts value) = none ↔
      ∀ value ∈ values, descriptor.kind.accepts value = true := by
    simp [List.find?_eq_none]
  rw [fault?, Suits]
  split
  · rename_i hseveral
    simp only [Bool.and_eq_true, Bool.not_eq_true', decide_eq_true_eq] at hseveral
    refine iff_of_false nofun fun h => ?_
    rcases h.2 with hrepeatable | hlength
    · rw [hseveral.1] at hrepeatable
      cases hrepeatable
    · omega
  · rename_i hseveral
    simp only [Bool.and_eq_true, Bool.not_eq_true', decide_eq_true_eq] at hseveral
    have hlength : descriptor.isRepeatable = true ∨ values.length ≤ 1 := by
      rcases Bool.eq_false_or_eq_true descriptor.isRepeatable with h | h
      · exact .inl h
      · exact .inr (Nat.not_lt.1 fun hlt => hseveral ⟨h, hlt⟩)
    rw [Option.map_eq_none_iff, hkind]
    exact (and_iff_left hlength).symm

/-- Options are in order if none of their keys has a fault. -/
theorem validateOptions_eq_ok_iff {plugins : List Metadata} {options : GenerationOptions} :
    validateOptions plugins options = .ok () ↔
      ∀ entry ∈ options.raw, optionFault? plugins entry.1 entry.2 = none := by
  unfold validateOptions
  split
  · rename_i fault hfault
    refine iff_of_false nofun fun h => ?_
    rw [List.findSome?_eq_none_iff.2 h] at hfault
    cases hfault
  · rename_i hnone
    exact iff_of_true rfl (List.findSome?_eq_none_iff.1 hnone)

/-- The values of a key with a colon are without a fault if the first plugin with the name before
the colon allows them under the name behind it. -/
theorem optionFault?_eq_none_iff {plugins : List Metadata} {key name own : String}
    {values : List String} (h : splitKey? key = some (name, own)) :
    optionFault? plugins key values = none ↔
      ∃ owner, plugins.find? (·.name == name) = some owner ∧ owner.Allows own values := by
  have hdescriptor : descriptor? plugins key =
      (plugins.find? (·.name == name)).bind fun owner =>
        owner.options.find? (·.name == own) := by
    rw [descriptor?, h]
    rfl
  rw [optionFault?, hdescriptor]
  cases howner : plugins.find? (·.name == name) with
  | none => exact iff_of_false nofun nofun
  | some owner =>
    simp only [Option.bind_some, Option.some.injEq, exists_eq_left', Metadata.Allows]
    cases hfound : owner.options.find? (·.name == own) with
    | none => exact iff_of_false nofun nofun
    | some descriptor => simp [descriptor.fault?_eq_none_iff]

/-! ### Plugins and their scopes -/

/-- **Who answers for the options of a plugin.** Let the options of a run be in order, and let a
plugin be given some values under a key that the run itself does not set. Then the first plugin
whose name stands before the first colon of the whole key allows the values, under what stands
behind the colon. If the name of the plugin has no colon, this is the first plugin of this name, and
the key is the one that the plugin is given. So a plugin without a colon in its name, before which
there is no other of this name, is given no option that it does not declare itself, and no values
that do not suit it.

**Proof sketch.** What a plugin is given under a key are the values of this key behind its name and
a colon (`GenerationOptions.mem_raw_of_get?_ownOptions`). The whole key has a colon, so it is cut,
and it is without a fault. -/
theorem allows_of_scopedFor {before after : List Metadata} {plugin : Metadata}
    {options : GenerationOptions} {key : String} {values : List String}
    (hvalid : validateOptions (before ++ plugin :: after) options = .ok ())
    (hcycles : key ≠ GenerationOptions.packageCyclesKey)
    (houtput : key ≠ GenerationOptions.outputKey)
    (hget : (options.scopedFor plugin.name).values.get? key = some values) :
    (∃ name own owner, splitKey? (plugin.name ++ ":" ++ key) = some (name, own) ∧
        (before ++ plugin :: after).find? (·.name == name) = some owner ∧
        owner.Allows own values) ∧
      (':' ∉ plugin.name.toList →
        (∃ owner, (before ++ plugin :: after).find? (·.name == plugin.name) = some owner ∧
            owner.Allows key values) ∧
          ((∀ other ∈ before, other.name ≠ plugin.name) → plugin.Allows key values)) := by
  rw [GenerationOptions.get?_scopedFor hcycles houtput] at hget
  have hfault : optionFault? (before ++ plugin :: after) (plugin.name ++ ":" ++ key) values =
      none :=
    validateOptions_eq_ok_iff.1 hvalid (plugin.name ++ ":" ++ key, values)
      (GenerationOptions.mem_raw_of_get?_ownOptions hget)
  refine ⟨?_, fun hcolon => ?_⟩
  · obtain ⟨name, own, hsplit⟩ := exists_splitKey? plugin.name key
    obtain ⟨owner, howner, hallows⟩ := (optionFault?_eq_none_iff hsplit).1 hfault
    exact ⟨name, own, owner, hsplit, howner, hallows⟩
  · have hallows := (optionFault?_eq_none_iff (splitKey?_append hcolon)).1 hfault
    refine ⟨hallows, fun hfirst => ?_⟩
    have hfind : (before ++ plugin :: after).find? (·.name == plugin.name) = some plugin := by
      rw [List.find?_append, List.find?_eq_none.2 fun other hother => ?_]
      · simp
      · simpa using hfirst other hother
    obtain ⟨owner, howner, hallows⟩ := hallows
    rw [hfind] at howner
    rwa [Option.some.inj howner]

/-- A processor that declares these options. -/
def processorWith (name : String) (options : List OptionDescriptor) : Metadata :=
  ⟨name, "", options, .processor⟩

/-- Two plugins of the same name, of which the first declares an option. -/
def twinPlugins : List Metadata :=
  [processorWith "x" [.single "o" "" .text], processorWith "x" []]

/-- A key for both of the plugins of one name. -/
def twinOptions : GenerationOptions := .ofPairs [("x:o", "1"), ("gen_output", "out")]

/-- The option that both of them are given is an option of the first one. -/
theorem allows_twinPlugins :
    validateOptions twinPlugins twinOptions = .ok () ∧
      (twinOptions.scopedFor "x").values.get? "o" = some ["1"] ∧
      (processorWith "x" [.single "o" "" .text]).Allows "o" ["1"] := by
  have hvalid : validateOptions twinPlugins twinOptions = .ok () :=
    validateOptions_eq_ok_iff.2 (by decide)
  have hget : (twinOptions.scopedFor "x").values.get? "o" = some ["1"] := by decide
  have hallows := @allows_of_scopedFor [] [processorWith "x" []]
    (processorWith "x" [.single "o" "" .text]) twinOptions "o" ["1"] hvalid (by decide)
    (by decide) hget
  exact ⟨hvalid, hget, (hallows.2 (by decide)).2 nofun⟩

/-- The first plugin declares an option with a colon in its name, and the second one has the name
that is left of the key then. -/
def colonPlugins : List Metadata :=
  [processorWith "a" [.single "b:c" "" .text], processorWith "a:b" []]

/-- A key for the first of the plugins whose names are cut at a colon. -/
def colonOptions : GenerationOptions := .ofPairs [("a:b:c", "1"), ("gen_output", "out")]

/-- A plugin can be given an option that it does not declare: one that belongs to another plugin, or
to the first plugin of its name. -/
theorem not_allows_of_colon_or_twin :
    (validateOptions colonPlugins colonOptions = .ok () ∧
        (colonOptions.scopedFor "a:b").values.get? "c" = some ["1"] ∧
        ∃ plugin ∈ colonPlugins, plugin.name = "a:b" ∧ ¬ plugin.Allows "c" ["1"]) ∧
      (validateOptions twinPlugins twinOptions = .ok () ∧
        (twinOptions.scopedFor "x").values.get? "o" = some ["1"] ∧
        ∃ plugin ∈ twinPlugins, plugin.name = "x" ∧ ¬ plugin.Allows "o" ["1"]) := by
  have hcolon : validateOptions colonPlugins colonOptions = .ok () :=
    validateOptions_eq_ok_iff.2 (by decide)
  have htwin : validateOptions twinPlugins twinOptions = .ok () :=
    validateOptions_eq_ok_iff.2 (by decide)
  have hcolonGet : (colonOptions.scopedFor "a:b").values.get? "c" = some ["1"] := by decide
  have htwinGet : (twinOptions.scopedFor "x").values.get? "o" = some ["1"] := by decide
  -- the second plugin declares nothing at all
  have hnone (name key : String) : ¬ (processorWith name []).Allows key ["1"] := by
    rintro ⟨descriptor, hfind, -⟩
    cases hfind
  exact ⟨⟨hcolon, hcolonGet, _, List.mem_cons_of_mem _ List.mem_cons_self, rfl, hnone "a:b" "c"⟩,
    htwin, htwinGet, _, List.mem_cons_of_mem _ List.mem_cons_self, rfl, hnone "x" "o"⟩

end SchemaForge
