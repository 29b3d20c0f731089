import SchemaForge.Generation.Options
import SchemaForge.Proofs.Generation.SortedMaps
set_option autoImplicit false

/-!
# What a plugin learns of the options

The options that a plugin is given are known key by key: what stands behind its name and a colon in
the options of the run, and the two keys that the run sets itself. So no other key of the run makes a
difference to a plugin, not even one that begins with its name and goes on without a colon.

## Main definitions

* `SchemaForge.GenerationOptions.AlikeFor` — options between which a plugin cannot tell.

## Main results

* `SchemaForge.GenerationOptions.get?_ownOptions` — what a plugin finds under a key of its own.
* `SchemaForge.GenerationOptions.scopedFor_eq_of_alikeFor` — a plugin is given the same options in
  two runs that are alike for it.
* `SchemaForge.GenerationOptions.scopedFor_isolates` — what a plugin is given, and what it depends
  on.
-/

namespace SchemaForge.GenerationOptions

variable {options : GenerationOptions} {plugin key own : String} {values : List String}

/-! ### The plugin's own keys -/

/-- A plugin sees what stands behind its name and a colon. -/
theorem eq_of_scopedKey? (h : scopedKey? plugin key = some own) : key = plugin ++ ":" ++ own := by
  rw [scopedKey?] at h
  split at h
  · cases h
  · cases h
  · rename_i rest _ hdrop
    obtain rfl := Option.some.inj h
    apply String.toList_injective
    rw [Text.dropStart?_eq_some_iff.1 hdrop]
    simp

/-- A plugin sees a key if something stands behind its name and a colon. -/
theorem scopedKey?_eq_some_iff :
    scopedKey? plugin key = some own ↔ own ≠ "" ∧ key = plugin ++ ":" ++ own := by
  have hdrop : Text.dropStart? (plugin.toList ++ [':']) (plugin ++ ":" ++ own).toList =
      some own.toList := Text.dropStart?_eq_some_iff.2 (by simp)
  constructor
  · intro h
    have hkey : key = plugin ++ ":" ++ own := eq_of_scopedKey? h
    refine ⟨?_, hkey⟩
    rintro rfl
    rw [scopedKey?, hkey, hdrop] at h
    cases h
  · rintro ⟨hown, rfl⟩
    rw [scopedKey?, hdrop]
    cases hchars : own.toList with
    | nil => exact absurd (String.toList_eq_nil_iff.1 hchars) hown
    | cons c cs =>
      have hback : String.ofList (c :: cs) = own := by rw [← hchars, String.ofList_toList]
      exact congrArg some hback

/-- Texts behind a common beginning are in their own order. -/
theorem lt_of_append_lt_append {start a b : String} (h : start ++ a < start ++ b) : a < b := by
  rcases Std.lt_trichotomy a b with hlt | rfl | hgt
  · exact hlt
  · exact absurd h (String.lt_irrefl _)
  · have hback : start ++ b < start ++ a := by
      rw [String.lt_iff, String.toList_append, String.toList_append]
      exact List.append_left_lt (String.lt_iff.1 hgt)
    exact absurd (String.lt_trans h hback) (String.lt_irrefl _)

/-- The keys of a plugin keep their order when the name and the colon are cut off. -/
theorem raw_ownOptions (options : GenerationOptions) (plugin : String) :
    (options.ownOptions plugin).raw = options.raw.filterMap fun (key, values) =>
      (scopedKey? plugin key).map fun own => (own, values) := by
  apply SortedMap.entries_ofList
  refine options.values.sorted.filterMap _ ?_
  intro x y hlt a ha b hb
  obtain ⟨own, hown, rfl⟩ := Option.map_eq_some_iff.1 ha
  obtain ⟨own', hown', rfl⟩ := Option.map_eq_some_iff.1 hb
  rw [eq_of_scopedKey? hown, eq_of_scopedKey? hown'] at hlt
  exact lt_of_append_lt_append hlt

theorem mem_raw_iff : (key, values) ∈ options.raw ↔ options.values.get? key = some values :=
  options.values.mem_entries_iff key values

/-- The entries of a plugin are those behind its name and a colon. -/
theorem mem_raw_ownOptions_iff :
    (key, values) ∈ (options.ownOptions plugin).raw ↔
      key ≠ "" ∧ (plugin ++ ":" ++ key, values) ∈ options.raw := by
  rw [raw_ownOptions, List.mem_filterMap]
  constructor
  · rintro ⟨⟨full, all⟩, hmem, hown⟩
    obtain ⟨own, hkey, heq⟩ := Option.map_eq_some_iff.1 hown
    obtain ⟨rfl, rfl⟩ := Prod.mk.inj heq
    obtain ⟨hne, rfl⟩ := scopedKey?_eq_some_iff.1 hkey
    exact ⟨hne, hmem⟩
  · rintro ⟨hne, hmem⟩
    have hown : scopedKey? plugin (plugin ++ ":" ++ key) = some key :=
      scopedKey?_eq_some_iff.2 ⟨hne, rfl⟩
    exact ⟨_, hmem, Option.map_eq_some_iff.2 ⟨key, hown, rfl⟩⟩

/-- Under a key of its own, a plugin finds what stands behind its name and a colon. -/
theorem get?_ownOptions (options : GenerationOptions) (plugin key : String) :
    (options.ownOptions plugin).values.get? key =
      if key = "" then none else options.values.get? (plugin ++ ":" ++ key) := by
  apply Option.ext
  intro values
  rw [← mem_raw_iff, mem_raw_ownOptions_iff, mem_raw_iff]
  by_cases hempty : key = ""
  · rw [if_pos hempty]
    exact iff_of_false (fun h => h.1 hempty) nofun
  · rw [if_neg hempty]
    exact and_iff_right hempty

/-- The values that a plugin is given under a key of its own are those of the key behind its name
and a colon. -/
theorem mem_raw_of_get?_ownOptions (h : (options.ownOptions plugin).values.get? key = some values) :
    (plugin ++ ":" ++ key, values) ∈ options.raw :=
  (mem_raw_ownOptions_iff.1 (mem_raw_iff.2 h)).2

/-! ### The keys that the run sets -/

theorem get?_put (options : GenerationOptions) (key value other : String) :
    (options.put key value).values.get? other =
      if other = key then some [value] else options.values.get? other :=
  options.values.get?_insert key [value] other

/-- What a plugin is given under each key. -/
theorem get?_scopedFor_ite (options : GenerationOptions) (plugin key : String) :
    (options.scopedFor plugin).values.get? key =
      if key = packageCyclesKey then some [boolWord options.permitsPackageCycles]
      else if key = outputKey then
        (options.output?.map fun root => [Path.join root plugin]).or
          ((options.ownOptions plugin).values.get? key)
      else (options.ownOptions plugin).values.get? key := by
  have hkeys : outputKey ≠ packageCyclesKey := by decide
  rw [scopedFor]
  cases options.output? with
  | none =>
    rw [get?_put]
    simp only [Option.map_none, Option.none_or, ite_self]
  | some root =>
    rw [get?_put, get?_put, Option.map_some, Option.some_or]
    by_cases hcycles : key = packageCyclesKey
    · rw [if_neg (by rw [hcycles]; exact hkeys.symm), if_pos hcycles, if_pos hcycles]
    · simp only [if_neg hcycles]

/-- The options that a plugin is given are its own, but for two keys that the run sets. -/
theorem get?_scopedFor (hcycles : key ≠ packageCyclesKey) (houtput : key ≠ outputKey) :
    (options.scopedFor plugin).values.get? key = (options.ownOptions plugin).values.get? key := by
  rw [get?_scopedFor_ite, if_neg hcycles, if_neg houtput]

/-- Cycles are permitted if the first value of their key is `true`. -/
theorem permitsPackageCycles_eq (options : GenerationOptions) :
    options.permitsPackageCycles = (options.get? packageCyclesKey == some "true") := by
  rw [permitsPackageCycles, flag?]
  cases options.get? packageCyclesKey <;> rfl

/-- The word for whether cycles are permitted. -/
theorem boolWord_permitsPackageCycles (options : GenerationOptions) :
    boolWord options.permitsPackageCycles =
      if options.get? packageCyclesKey = some "true" then "true" else "false" := by
  rw [permitsPackageCycles_eq, boolWord]
  simp only [beq_iff_eq]

/-! ### What a plugin is given -/

/-- The entries that a plugin is given: two keys of the run, and the keys behind its name and a
colon that are not one of them. -/
theorem mem_raw_scopedFor_iff :
    (key, values) ∈ (options.scopedFor plugin).raw ↔
      (key = packageCyclesKey ∧ values = [boolWord options.permitsPackageCycles]) ∨
      (∃ root, options.output? = some root ∧ key = outputKey ∧
        values = [Path.join root plugin]) ∨
      (key ≠ "" ∧ key ≠ packageCyclesKey ∧ (key = outputKey → options.output? = none) ∧
        (plugin ++ ":" ++ key, values) ∈ options.raw) := by
  have hkeys : outputKey ≠ packageCyclesKey := by decide
  have hown : (options.ownOptions plugin).values.get? key = some values ↔
      key ≠ "" ∧ (plugin ++ ":" ++ key, values) ∈ options.raw :=
    mem_raw_iff.symm.trans mem_raw_ownOptions_iff
  rw [mem_raw_iff, get?_scopedFor_ite]
  by_cases hcycles : key = packageCyclesKey
  · simp [hcycles, hkeys.symm, eq_comm]
  · rw [if_neg hcycles]
    by_cases houtput : key = outputKey
    · rw [if_pos houtput]
      cases hroot : options.output? with
      | none =>
        rw [Option.map_none, Option.none_or, hown]
        simp [hcycles]
      | some root => simp [houtput, hkeys, eq_comm]
    · rw [if_neg houtput, hown]
      simp [hcycles, houtput]

/-- Options between which a plugin cannot tell: they agree on the keys behind its name and a colon,
on whether the first value for package cycles is `true`, and on the first output directory. -/
structure AlikeFor (plugin : String) (a b : GenerationOptions) : Prop where
  own : ∀ key, a.values.get? (plugin ++ ":" ++ key) = b.values.get? (plugin ++ ":" ++ key)
  cycles : a.get? packageCyclesKey = some "true" ↔ b.get? packageCyclesKey = some "true"
  output : a.get? outputKey = b.get? outputKey

/-- A plugin is given the same options in two runs that are alike for it. -/
theorem scopedFor_eq_of_alikeFor {a b : GenerationOptions} (h : AlikeFor plugin a b) :
    a.scopedFor plugin = b.scopedFor plugin := by
  have houtput : a.output? = b.output? := h.output
  have hcycles : boolWord a.permitsPackageCycles = boolWord b.permitsPackageCycles := by
    simp only [boolWord_permitsPackageCycles, h.cycles]
  have hvalues : (a.scopedFor plugin).values = (b.scopedFor plugin).values := by
    apply SortedMap.ext_get?
    intro key
    simp only [get?_scopedFor_ite, get?_ownOptions, h.own, houtput, hcycles]
  exact congrArg mk hvalues

/-- **What a plugin learns of the options.** The entries that a plugin is given are these: whether
package cycles are permitted, by the first value of the key in the run; the directory with its name
in the first output directory of the run, if there is one; and, for each entry of the run whose key
is the name of the plugin, a colon and at least one more character, the same values under what
stands behind the colon, unless this is one of the two keys and the run sets it. So two runs that
agree on the keys behind the name and a colon, on the permission and on the first output directory
are the same to the plugin.

**Proof sketch.** The name and the colon are cut off in order (`raw_ownOptions`), so each of the
plugin's own keys is there once. The keys of the run are put in last. For two runs, what is found
under each key is the same, and a map is known by what is found in it (`SortedMap.ext_get?`). -/
theorem scopedFor_isolates (plugin : String) :
    (∀ (options : GenerationOptions) (key : String) (values : List String),
      (key, values) ∈ (options.scopedFor plugin).raw ↔
        (key = packageCyclesKey ∧
          values = [if options.get? packageCyclesKey = some "true" then "true" else "false"]) ∨
        (∃ root, options.get? outputKey = some root ∧ key = outputKey ∧
          values = [Path.join root plugin]) ∨
        (key ≠ "" ∧ key ≠ packageCyclesKey ∧
          (key = outputKey → options.get? outputKey = none) ∧
          (plugin ++ ":" ++ key, values) ∈ options.raw)) ∧
      ∀ a b : GenerationOptions, AlikeFor plugin a b → a.scopedFor plugin = b.scopedFor plugin := by
  refine ⟨fun options key values => ?_, fun a b => scopedFor_eq_of_alikeFor⟩
  rw [← boolWord_permitsPackageCycles]
  exact mem_raw_scopedFor_iff

/-- Options for a plugin whose name begins with the name of another one. -/
def longNameOptions : GenerationOptions := .ofPairs [("json:pretty", "true"), ("gen_output", "out")]

/-- The plugin with the shorter name learns nothing of the options for the longer name. -/
theorem scopedFor_js_longNameOptions :
    AlikeFor "js" longNameOptions (.ofPairs [("gen_output", "out")]) ∧
      longNameOptions.scopedFor "js" = scopedFor (.ofPairs [("gen_output", "out")]) "js" ∧
      ("gen_output", ["out/js"]) ∈ (longNameOptions.scopedFor "js").raw := by
  have hlong : longNameOptions = (ofPairs [("gen_output", "out")]).put "json:pretty" "true" := by
    decide
  have halike : AlikeFor "js" longNameOptions (.ofPairs [("gen_output", "out")]) := by
    refine ⟨?_, by decide, by decide⟩
    intro key
    have hne : "js" ++ ":" ++ key ≠ "json:pretty" := by
      intro h
      have hthird := congrArg (fun text => text.toList[2]?) h
      simp at hthird
    rw [hlong, get?_put, if_neg hne]
  have hgiven := scopedFor_isolates "js"
  refine ⟨halike, hgiven.2 _ _ halike, ?_⟩
  exact (hgiven.1 _ _ _).2 (.inr (.inl ⟨"out", by decide, rfl, by decide⟩))

end SchemaForge.GenerationOptions
