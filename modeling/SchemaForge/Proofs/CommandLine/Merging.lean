import SchemaForge.CommandLine.Settings
import SchemaForge.Proofs.Config.Options
import SchemaForge.Proofs.Process.LoadFaults
set_option autoImplicit false

/-!
# Arguments merged over a configuration

What the settings of a run have under a key comes from up to four places: the table of options of
the configuration, the field of the configuration for this key, arguments that name the key, and
the argument made for it. The first two make up the options of the configuration. Of the others,
some take the place of what is there and some come behind it.

## Main definitions

* `SchemaForge.GenerateArguments.given` — the values that arguments give to a key.
* `SchemaForge.GenerateArguments.merged` — the values of a key in the end.

## Main results

* `SchemaForge.GenerateArguments.valueFor?_eq_some_iff` — how an argument names a key.
* `SchemaForge.GenerateSettings.resolve_merges` — the settings key by key, and their commands.
-/

namespace SchemaForge

open GenerationOptions

/-! ### What arguments say -/

namespace GenerateArguments

/-- The value that an argument gives to the key, if it names this key. -/
def valueFor? (key argument : String) : Option String :=
  match Text.splitFirst '=' argument with
  | none => none
  | some (name, value) => if Text.trim name = key then some value else none

/-- An argument is cut at its first equals sign. -/
theorem splitFirst_eq_some_iff {argument name value : String} :
    Text.splitFirst '=' argument = some (name, value) ↔
      argument = name ++ "=" ++ value ∧ '=' ∉ name.toList := by
  have hchars : Text.splitFirst '=' argument = some (name, value) ↔
      Text.splitFirstChars '=' argument.toList = some (name.toList, value.toList) := by
    rw [Text.splitFirst, Option.map_eq_some_iff]
    constructor
    · rintro ⟨⟨before, after⟩, hcut, hparts⟩
      cases hparts
      rw [hcut, String.toList_ofList, String.toList_ofList]
    · intro hcut
      exact ⟨_, hcut, congrArg₂ Prod.mk String.ofList_toList String.ofList_toList⟩
  rw [hchars, Text.splitFirstChars_eq_some_iff, ← String.toList_inj]
  simp

/-- An argument names the key, with blanks at most around it, before its first equals sign. -/
theorem valueFor?_eq_some_iff {key argument value : String} :
    valueFor? key argument = some value ↔
      ∃ name, argument = name ++ "=" ++ value ∧ '=' ∉ name.toList ∧ Text.trim name = key := by
  constructor
  · intro h
    unfold valueFor? at h
    split at h
    · cases h
    · rename_i name _ hsplit
      split at h
      · rename_i hkey
        cases h
        obtain ⟨hargument, hname⟩ := splitFirst_eq_some_iff.1 hsplit
        exact ⟨name, hargument, hname, hkey⟩
      · cases h
  · rintro ⟨name, hargument, hname, hkey⟩
    rw [valueFor?, splitFirst_eq_some_iff.2 ⟨hargument, hname⟩]
    exact if_pos hkey

/-- The values that arguments give to the key, in order. -/
def given (arguments : GenerateArguments) (key : String) : List String :=
  arguments.options.filterMap (valueFor? key)

/-- What arguments make of the values of a key in a configuration. Values that are given take the
place of those of the configuration. The inputs come behind the values of their keys; the argument
that permits cycles, and the output directory, are the only values of theirs. -/
def merged (arguments : GenerateArguments) (configured : List String) (key : String) :
    List String :=
  let given := arguments.given key
  let values := if given = [] then configured else given
  if key = sourceInputKey then values ++ arguments.sourceInputs
  else if key = contextInputKey then values ++ arguments.contextInputs
  else if key = packageCyclesKey then
    if arguments.permitsPackageCycles then ["true"] else values
  else if key = outputKey then
    match arguments.output with
    | none => values
    | some path => [path]
  else values

end GenerateArguments

/-- What is read from an argument is what it gives to its key. -/
theorem valueFor?_of_optionOfArgument {argument : String} {pair : String × String}
    (h : optionOfArgument argument = .ok pair) (key : String) :
    GenerateArguments.valueFor? key argument = if pair.1 = key then some pair.2 else none := by
  unfold optionOfArgument at h
  unfold GenerateArguments.valueFor?
  cases hsplit : Text.splitFirst '=' argument with
  | none =>
    rw [hsplit] at h
    cases h
  | some parts =>
    rw [hsplit] at h
    dsimp only at h
    split at h
    · cases h
    · cases h
      rfl

/-- What is read from arguments is what each of them gives to its key. -/
theorem filterMap_optionsOfArguments {arguments : List String} {pairs : List (String × String)}
    (h : optionsOfArguments arguments = .ok pairs) (key : String) :
    (pairs.filterMap fun pair => if pair.1 = key then some pair.2 else none) =
      arguments.filterMap (GenerateArguments.valueFor? key) := by
  induction arguments generalizing pairs with
  | nil =>
    cases h
    rfl
  | cons argument arguments ih =>
    simp only [optionsOfArguments, bind, Except.bind] at h
    split at h
    · cases h
    · rename_i first hfirst
      split at h
      · cases h
      · rename_i others hothers
        cases h
        rw [List.filterMap_cons, List.filterMap_cons, valueFor?_of_optionOfArgument hfirst,
          ih hothers]

namespace GenerateSettings

/-! ### Options -/

variable {arguments : GenerateArguments} {config : Config} {options : GenerationOptions}

/-- Keys that are replaced one after the other have the values of the last entry with the key. -/
theorem getAll_override (options : GenerationOptions) (entries : List (String × List String))
    (key : String) :
    (override options entries).getAll key =
      (entries.reverse.lookup key).getD (options.getAll key) := by
  induction entries generalizing options with
  | nil => rfl
  | cons entry entries ih =>
    have hstep : override options (entry :: entries) =
        override ((options.remove entry.1).2.appendAll entry.1 entry.2) entries := rfl
    rw [hstep, ih, getAll_appendAll, getAll_remove, List.reverse_cons, List.lookup_append,
      SortedMap.lookup_cons_ite]
    by_cases hkey : key = entry.1
    · rw [if_pos hkey, if_pos hkey, if_pos hkey, List.nil_append]
      cases entries.reverse.lookup key <;> rfl
    · rw [if_neg hkey, if_neg hkey, if_neg hkey]
      cases entries.reverse.lookup key <;> rfl

/-- Keys that other options have are replaced. -/
theorem getAll_override_raw (options : GenerationOptions) {overrides : GenerationOptions}
    (h : overrides.Filled) (key : String) :
    (override options overrides.raw).getAll key =
      if overrides.getAll key = [] then options.getAll key else overrides.getAll key := by
  have hlookup : overrides.raw.reverse.lookup key = overrides.values.get? key := by
    rw [← SortedMap.get?_ofList, raw, SortedMap.ofList_entries]
  rw [getAll_override, hlookup, h.get?_eq]
  split <;> rfl

theorem filled_override (h : options.Filled) (entries : List (String × List String)) :
    (override options entries).Filled := by
  induction entries generalizing options with
  | nil => exact h
  | cons entry entries ih => exact ih ((h.remove entry.1).appendAll entry.1 entry.2)

/-- The values of a key in merged options. -/
theorem getAll_mergeOptions (options : GenerationOptions) {pairs : List (String × String)}
    (h : optionsOfArguments arguments.options = .ok pairs) (key : String) :
    (mergeOptions arguments options (ofPairs pairs)).getAll key =
      arguments.merged (options.getAll key) key := by
  have hgiven : (ofPairs pairs).getAll key = arguments.given key :=
    (getAll_ofPairs pairs key).trans (filterMap_optionsOfArguments h key)
  have hvalues := getAll_override_raw options (filled_ofPairs pairs) key
  rw [hgiven] at hvalues
  -- the inputs, the permission of cycles and the output directory, one after the other
  let replaced := override options (ofPairs pairs).raw
  let withInputs := (replaced.appendAll sourceInputKey arguments.sourceInputs).appendAll
    contextInputKey arguments.contextInputs
  let withCycles :=
    if arguments.permitsPackageCycles then withInputs.put packageCyclesKey "true" else withInputs
  have hcycles : withCycles.getAll key =
      if arguments.permitsPackageCycles ∧ key = packageCyclesKey then ["true"]
      else withInputs.getAll key := by
    cases hpermits : arguments.permitsPackageCycles with
    | false => simp [withCycles, hpermits]
    | true => simp [withCycles, hpermits, getAll_put]
  have houtput : (mergeOptions arguments options (ofPairs pairs)).getAll key =
      match arguments.output with
      | none => withCycles.getAll key
      | some path => if key = outputKey then [path] else withCycles.getAll key := by
    unfold mergeOptions
    cases arguments.output with
    | none => rfl
    | some path => exact getAll_put withCycles outputKey path key
  rw [houtput, hcycles, GenerateArguments.merged]
  simp only [withInputs, replaced, getAll_appendAll, hvalues]
  have hsource : sourceInputKey ≠ contextInputKey ∧ sourceInputKey ≠ packageCyclesKey ∧
      sourceInputKey ≠ outputKey := by decide
  have hcontext : contextInputKey ≠ packageCyclesKey ∧ contextInputKey ≠ outputKey := by decide
  have hlast : packageCyclesKey ≠ outputKey := by decide
  cases arguments.output <;> grind

/-- No key of merged options is left without a value. -/
theorem filled_mergeOptions (h : options.Filled) (overrides : GenerationOptions) :
    (mergeOptions arguments options overrides).Filled := by
  have hinputs : (((override options overrides.raw).appendAll sourceInputKey
      arguments.sourceInputs).appendAll contextInputKey arguments.contextInputs).Filled :=
    ((filled_override h overrides.raw).appendAll _ _).appendAll _ _
  unfold mergeOptions
  cases arguments.output <;> cases arguments.permitsPackageCycles
  · exact hinputs
  · exact hinputs.put _ _
  · exact hinputs.put _ _
  · exact (hinputs.put _ _).put _ _

end GenerateSettings

/-- Each command of a list has a word. -/
theorem Config.ne_nil_of_mem_commandsOf {lines : List String} {command : List String}
    (h : command ∈ commandsOf lines) : command ≠ [] :=
  of_decide_eq_true (List.mem_filter.1 h).2

/-- There are commands, and each of them has a word. -/
theorem commands_of_pluginCommands {plugins : List String} {config : Config}
    {commands : List (List String)} (h : pluginCommands plugins config = .ok commands) :
    commands ≠ [] ∧ ∀ command ∈ commands, command ≠ [] := by
  obtain ⟨lines, hlines⟩ : ∃ lines, (if plugins = [] then config.pluginCommands
      else Config.commandsOf plugins) = Config.commandsOf lines := by
    split
    · exact ⟨config.plugins.commands, rfl⟩
    · exact ⟨plugins, rfl⟩
  simp only [pluginCommands, hlines] at h
  split at h
  · cases h
  · rename_i hne
    cases h
    exact ⟨hne, fun _ => Config.ne_nil_of_mem_commandsOf⟩

/-- Settings come of a schema, commands, the options of the configuration and arguments that all
name a key. -/
theorem GenerateSettings.exists_of_resolve {arguments : GenerateArguments} {config : Config}
    {settings : GenerateSettings} (h : resolve arguments config = .ok settings) :
    pluginCommands arguments.plugins config = .ok settings.commands ∧
      ∃ configured pairs, config.generationOptions = .ok configured ∧
        optionsOfArguments arguments.options = .ok pairs ∧
        settings.options = mergeOptions arguments configured (ofPairs pairs) := by
  simp only [resolve, bind, Except.bind] at h
  split at h
  · cases h
  split at h
  · cases h
  rename_i commands hcommands
  split at h
  · cases h
  rename_i configured hconfigured
  split at h
  · cases h
  rename_i pairs hpairs
  cases h
  refine ⟨hcommands, configured, pairs, ?_, hpairs, rfl⟩
  rw [configOptions] at hconfigured
  cases hoptions : config.generationOptions with
  | error error =>
    rw [hoptions] at hconfigured
    cases hconfigured
  | ok options =>
    rw [hoptions] at hconfigured
    cases hconfigured
    rfl

/-- **Settings.** Let there be settings for arguments and a configuration. Then the values of each
key are those of the options of the configuration with what the arguments make of them, whatever
arguments for other keys stand between, and a key without values is absent. There are commands, each
with a word, so to load their plugins never fails for a command without a program.

**Proof sketch.** The pairs read from the arguments are kept apart by their keys (`getAll_ofPairs`),
and an override replaces the values of each key that they have. What is done with the four keys of
the run then touches no other key. No step leaves a key without a value (`Filled`), so what is found
under a key is known from its values. A command without a word is left out, and a failure to load is
about one of the commands (`loadAll_failsOnlyWith`). -/
theorem GenerateSettings.resolve_merges {arguments : GenerateArguments} {config : Config}
    {settings : GenerateSettings} (h : resolve arguments config = .ok settings) :
    (∃ configured, config.generationOptions = .ok configured ∧
      ∀ key, settings.options.values.get? key =
        if arguments.merged (configured.getAll key) key = [] then none
        else some (arguments.merged (configured.getAll key) key)) ∧
      (settings.commands ≠ [] ∧ ∀ command ∈ settings.commands, command ≠ []) ∧
      ∀ (π σ : Type) [Process π] (system : System π) (logger : Logger) (limit : Option Duration)
        (journal last : Journal σ) (error : LoadError),
        (loadWithin system logger limit settings.commands).run journal =
          (.error (.failed (.load error)), last) → error ≠ .emptyCommand := by
  obtain ⟨hcommands, configured, pairs, hconfigured, hpairs, hoptions⟩ := exists_of_resolve h
  have hwords := commands_of_pluginCommands hcommands
  refine ⟨⟨configured, hconfigured, fun key => ?_⟩, hwords, ?_⟩
  · have hfilled : settings.options.Filled :=
      hoptions ▸ filled_mergeOptions (Config.filled_generationOptions hconfigured) _
    rw [hfilled.get?_eq, hoptions, getAll_mergeOptions configured hpairs]
  · intro π σ _ system logger limit journal last error hload
    exact ne_emptyCommand_of_loadWithin system logger hwords.2 hload

/-- A configuration with options for plugins, of which one is an empty array, and a source. -/
def layeredConfig : Config where
  generation := {
    output := some "out"
    sourceInputs := ["table.json"]
    options := .ofList [("go:tags", .array []), ("js:size", .integer 7), ("py:size", .integer 8)] }
  plugins := { commands := ["generator --fast"] }

/-- Arguments that name one of its keys twice, with another one between. -/
def layeredArguments : GenerateArguments where
  schema := some "schema.json"
  sourceInputs := ["late.json"]
  permitsPackageCycles := true
  options := ["js:size =1", "source_input=early.json", "js:size=2=3"]

/-- The values of one place, of two places and of none. -/
theorem GenerateSettings.resolve_layered :
    ∃ settings, resolve layeredArguments layeredConfig = .ok settings ∧
      settings.options.values.get? "js:size" = some ["1", "2=3"] ∧
      settings.options.values.get? "py:size" = some ["8"] ∧
      settings.options.values.get? "go:tags" = none ∧
      settings.options.values.get? sourceInputKey = some ["early.json", "late.json"] ∧
      settings.options.values.get? packageCyclesKey = some ["true"] ∧
      settings.options.values.get? outputKey = some ["out"] ∧
      settings.commands = [["generator", "--fast"]] := by
  obtain ⟨settings, hsettings⟩ :
      ∃ settings, resolve layeredArguments layeredConfig = .ok settings := ⟨_, rfl⟩
  have hconfig : layeredConfig.generationOptions = .ok ⟨.ofList [
      (outputKey, ["out"]), (packageCyclesKey, ["false"]), ("js:size", ["7"]), ("py:size", ["8"]),
      (sourceInputKey, ["table.json"])]⟩ := by rfl
  obtain ⟨⟨configured, hconfigured, hkeys⟩, -, -⟩ := resolve_merges hsettings
  cases hconfigured.symm.trans hconfig
  have hcommands : Except.ok settings.commands = .ok [["generator", "--fast"]] :=
    (exists_of_resolve hsettings).1.symm
  exact ⟨settings, hsettings, (hkeys _).trans (by decide), (hkeys _).trans (by decide),
    (hkeys _).trans (by decide), (hkeys _).trans (by decide), (hkeys _).trans (by decide),
    (hkeys _).trans (by decide), Except.ok.inj hcommands⟩

end SchemaForge
