import Mathlib.Data.List.Forall2
import SchemaForge.Config.Basic
import SchemaForge.Proofs.Generation.SortedMaps
import SchemaForge.Proofs.Generation.Values
import SchemaForge.Proofs.Number.Shortest
import SchemaForge.Proofs.Text.ByteOrder
import SchemaForge.Proofs.Toml.Datetime
set_option autoImplicit false

/-!
# The options that a configuration describes

A table of options has values of any kind, but plugins are given texts. A scalar has a text, an
array of scalars has theirs, and nothing else has any. What the table says under a key is then
joined, or replaced, by what the fields of the configuration say.

## Main definitions

* `SchemaForge.Toml.Value.Unsupported` — a value that has no texts.
* `SchemaForge.Toml.Value.HasText` — the text of a scalar.
* `SchemaForge.Toml.Value.HasTexts` — the texts that a value has.
* `SchemaForge.Config.Tabulates` — what the table of options says under a key.
* `SchemaForge.Config.configured` — the values of a key in the end.

## Main results

* `SchemaForge.Toml.Value.texts?_eq_some_iff`, `SchemaForge.Toml.Value.texts?_eq_none_iff` — the
  texts of a value, and when there are none.
* `SchemaForge.Config.filled_generationOptions` — no key is left without a value.
* `SchemaForge.Config.generationOptions_converts` — the options key by key, and the key to blame.
-/

namespace SchemaForge

open GenerationOptions

/-! ### Texts of values -/

namespace Toml.Value

/-- The value has other values in it. -/
def IsCollection : Value → Prop
  | .array _ | .table _ => True
  | _ => False

/-- The value cannot be given to plugins: it is a table, or an array with an array or a table among
its items. -/
def Unsupported : Value → Prop
  | .array items => ∃ item ∈ items, item.IsCollection
  | .table _ => True
  | _ => False

/-- The text of a scalar: a text itself, an integer in decimal digits, a floating-point number in the
fewest digits, a truth value as a word, and a date or time with its parts. -/
inductive HasText : Value → String → Prop where
  | string {text : String} : HasText (.string text) text
  | integer {n : ℤ} : HasText (.integer n) (toString n)
  | float {number : Binary64} {text : String} (h : number.HasText text) :
      HasText (.float number) text
  | yes : HasText (.boolean true) "true"
  | no : HasText (.boolean false) "false"
  | datetime {moment : Datetime} {text : String} (h : moment.HasText text.toList) :
      HasText (.datetime moment) text

/-- The texts of a value: the one of a scalar, or those of the items of an array in order. -/
inductive HasTexts : Value → List String → Prop where
  | scalar {value : Value} {text : String} (h : value.HasText text) : HasTexts value [text]
  | array {items : List Value} {texts : List String} (h : List.Forall₂ HasText items texts) :
      HasTexts (.array items) texts

/-- The text of a scalar is found. -/
theorem scalarText?_eq_some_iff {value : Value} {text : String} :
    value.scalarText? = some text ↔ value.HasText text := by
  constructor
  · intro h
    cases value with
    | string s =>
      cases h
      exact .string
    | integer n =>
      cases h
      exact .integer
    | float number => exact .float (Binary64.hasText_iff.2 (Option.some.inj h))
    | boolean b =>
      cases b with
      | false =>
        cases h
        exact .no
      | true =>
        cases h
        exact .yes
    | datetime moment => exact .datetime (Datetime.hasText_iff.2 (Option.some.inj h))
    | array items => cases h
    | table members => cases h
  · intro h
    cases h with
    | string | integer | yes | no => rfl
    | float h => exact congrArg some (Binary64.hasText_iff.1 h)
    | datetime h => exact congrArg some (Datetime.hasText_iff.1 h)

theorem scalarText?_eq_none_iff {value : Value} :
    value.scalarText? = none ↔ value.IsCollection := by
  cases value <;> simp [scalarText?, IsCollection]

/-- Items have texts together if each of them has one. -/
theorem mapM_scalarText?_eq_some_iff {items : List Value} {texts : List String} :
    items.mapM scalarText? = some texts ↔ List.Forall₂ HasText items texts := by
  induction items generalizing texts with
  | nil => simp [eq_comm]
  | cons item items ih =>
    rw [List.mapM_cons, List.forall₂_cons_left_iff]
    simp only [← ih, ← scalarText?_eq_some_iff, Option.bind_eq_bind, Option.bind_eq_some_iff,
      Option.pure_def, Option.some.injEq]
    constructor
    · rintro ⟨text, htext, others, hothers, rfl⟩
      exact ⟨text, others, htext, hothers, rfl⟩
    · rintro ⟨text, others, htext, hothers, rfl⟩
      exact ⟨text, htext, others, hothers, rfl⟩

theorem mapM_scalarText?_eq_none_iff {items : List Value} :
    items.mapM scalarText? = none ↔ ∃ item ∈ items, item.IsCollection := by
  induction items with
  | nil => simp
  | cons item items ih =>
    rw [List.mapM_cons, List.exists_mem_cons_iff, ← ih, ← scalarText?_eq_none_iff]
    cases item.scalarText? with
    | none => simp
    | some text => cases items.mapM scalarText? <;> simp

/-- What is no array has the text of a scalar, if it has any. -/
theorem texts?_of_ne_array {value : Value} (h : ∀ items, value ≠ .array items) :
    value.texts? = value.scalarText?.map ([·]) := by
  cases value with
  | array items => exact absurd rfl (h items)
  | _ => rfl

/-- The texts of a value are found. -/
theorem texts?_eq_some_iff {value : Value} {texts : List String} :
    value.texts? = some texts ↔ value.HasTexts texts := by
  by_cases harray : ∃ items, value = .array items
  · obtain ⟨items, rfl⟩ := harray
    refine mapM_scalarText?_eq_some_iff.trans ⟨.array, ?_⟩
    rintro (h | h)
    · cases h
    · exact h
  · rw [texts?_of_ne_array (not_exists.1 harray), Option.map_eq_some_iff]
    constructor
    · rintro ⟨text, htext, rfl⟩
      exact .scalar (scalarText?_eq_some_iff.1 htext)
    · rintro (h | h)
      · exact ⟨_, scalarText?_eq_some_iff.2 h, rfl⟩
      · exact absurd ⟨_, rfl⟩ harray

/-- Where no texts are found there are none. -/
theorem texts?_eq_none_iff {value : Value} : value.texts? = none ↔ value.Unsupported := by
  cases value with
  | array items => exact mapM_scalarText?_eq_none_iff
  | _ => simp [texts?, scalarText?, Unsupported]

end Toml.Value

/-! ### Options key by key -/

namespace Config

variable {options last : GenerationOptions} {entries : List (String × Toml.Value)}

/-- What the table of options says under a key: the texts of the value there, if there is one. -/
def Tabulates (config : Config) (key : String) (texts : List String) : Prop :=
  match config.generation.options.get? key with
  | none => texts = []
  | some value => value.HasTexts texts

/-- The table of options says one thing under a key. -/
theorem Tabulates.unique {config : Config} {key : String} {texts others : List String}
    (h : config.Tabulates key texts) (hothers : config.Tabulates key others) : texts = others := by
  unfold Tabulates at h hothers
  cases hkey : config.generation.options.get? key with
  | none =>
    rw [hkey] at h hothers
    exact h.trans hothers.symm
  | some value =>
    rw [hkey] at h hothers
    exact Option.some.inj ((Toml.Value.texts?_eq_some_iff.2 h).symm.trans
        (Toml.Value.texts?_eq_some_iff.2 hothers))

/-- The values of a key in the end, given what the table of options says under it. The inputs come
behind that, the word for whether cycles are permitted takes its place, and so does the output
directory if there is one. -/
def configured (config : Config) (table : List String) (key : String) : List String :=
  if key = sourceInputKey then table ++ config.generation.sourceInputs
  else if key = contextInputKey then table ++ config.generation.contextInputs
  else if key = packageCyclesKey then
    [if config.generation.permitsPackageCycles then "true" else "false"]
  else if key = outputKey then
    match config.generation.output with
    | none => table
    | some path => [path]
  else table

/-- Entries are added until one of them has no texts, which is blamed. -/
theorem addOptions_eq_error_iff {error : ConfigError} :
    addOptions options entries = .error error ↔
      entries.findSome? (fun entry =>
        if entry.2.texts? = none then some (ConfigError.unsupportedOption entry.1) else none) =
          some error := by
  induction entries generalizing options with
  | nil => exact iff_of_false nofun nofun
  | cons entry entries ih =>
    rw [addOptions, List.findSome?_cons]
    cases entry.2.texts? with
    | none => simp
    | some texts => simpa using ih

/-- Otherwise all of them have texts. -/
theorem texts?_ne_none_of_addOptions (h : addOptions options entries = .ok last) :
    ∀ entry ∈ entries, entry.2.texts? ≠ none := by
  induction entries generalizing options with
  | nil => exact nofun
  | cons entry entries ih =>
    rw [addOptions] at h
    cases htexts : entry.2.texts? with
    | none =>
      rw [htexts] at h
      cases h
    | some texts =>
      rw [htexts] at h
      exact List.forall_mem_cons.2 ⟨htexts ▸ Option.some_ne_none texts, ih h⟩

/-- Entries in order of their keys add the texts of their values, each under its key. -/
theorem getAll_of_addOptions (hsorted : entries.Pairwise fun a b => a.1 < b.1)
    (h : addOptions options entries = .ok last) (key : String) :
    last.getAll key =
      options.getAll key ++ ((entries.lookup key).bind Toml.Value.texts?).getD [] := by
  induction entries generalizing options with
  | nil =>
    cases h
    exact (List.append_nil _).symm
  | cons entry entries ih =>
    obtain ⟨hfirst, hrest⟩ := List.pairwise_cons.1 hsorted
    rw [addOptions] at h
    cases htexts : entry.2.texts? with
    | none =>
      rw [htexts] at h
      cases h
    | some texts =>
      rw [htexts] at h
      rw [ih hrest h, getAll_appendAll, SortedMap.lookup_cons_ite]
      split
      · rename_i hkey
        -- no later entry has the same key
        have hnone : entries.lookup key = none := by
          rw [List.lookup_eq_none_iff]
          intro other hother
          have hlt := hfirst other hother
          rw [hkey, bne_iff_ne]
          exact fun heq => String.lt_irrefl _ (heq ▸ hlt)
        rw [hnone, Option.bind_none, Option.getD_none, List.append_nil, Option.bind_some, htexts,
          Option.getD_some]
      · rfl

/-- No key of the options of a configuration is left without a value, even if its value is an empty
array. -/
theorem filled_addOptions (h : options.Filled)
    (hlast : addOptions options entries = .ok last) : last.Filled := by
  induction entries generalizing options with
  | nil =>
    cases hlast
    exact h
  | cons entry entries ih =>
    rw [addOptions] at hlast
    split at hlast
    · cases hlast
    · exact ih (h.appendAll _ _) hlast

/-- The options with what the fields of the configuration say behind or instead of them. -/
def addFields (config : Config) (options : GenerationOptions) : GenerationOptions :=
  let generation := config.generation
  let inputs := (options.appendAll sourceInputKey generation.sourceInputs).appendAll
    contextInputKey generation.contextInputs
  let options := inputs.put packageCyclesKey (boolWord generation.permitsPackageCycles)
  match generation.output with
  | none => options
  | some path => options.put outputKey path

/-- The table of options is converted first, and the fields do not fail. -/
theorem generationOptions_eq_map (config : Config) :
    config.generationOptions =
      (addOptions .empty config.generation.options.entries).map config.addFields := by
  rw [generationOptions]
  dsimp only
  cases addOptions .empty config.generation.options.entries with
  | error error => rfl
  | ok table =>
    change _ = Except.ok (config.addFields table)
    rw [addFields]
    dsimp only [bind, Except.bind]
    cases config.generation.output <;> rfl

theorem filled_addFields (config : Config) (h : options.Filled) :
    (config.addFields options).Filled := by
  have hinputs := ((h.appendAll sourceInputKey config.generation.sourceInputs).appendAll
    contextInputKey config.generation.contextInputs).put packageCyclesKey
      (boolWord config.generation.permitsPackageCycles)
  rw [addFields]
  cases config.generation.output with
  | none => exact hinputs
  | some path => exact hinputs.put outputKey path

theorem filled_generationOptions {config : Config} (h : config.generationOptions = .ok options) :
    options.Filled := by
  rw [generationOptions_eq_map] at h
  cases htable : addOptions .empty config.generation.options.entries with
  | error error =>
    rw [htable] at h
    cases h
  | ok table =>
    rw [htable] at h
    cases h
    exact config.filled_addFields (filled_addOptions .empty htable)

/-- Each field changes the values of its own key. -/
theorem getAll_addFields (config : Config) (options : GenerationOptions) (key : String) :
    (config.addFields options).getAll key = config.configured (options.getAll key) key := by
  have hsource : sourceInputKey ≠ contextInputKey ∧ sourceInputKey ≠ packageCyclesKey ∧
      sourceInputKey ≠ outputKey := by decide
  have hcontext : contextInputKey ≠ packageCyclesKey ∧ contextInputKey ≠ outputKey := by decide
  have hlast : packageCyclesKey ≠ outputKey := by decide
  rw [addFields, configured]
  cases config.generation.output with
  | none =>
    simp only [getAll_put, getAll_appendAll, boolWord]
    grind
  | some path =>
    simp only [getAll_put, getAll_appendAll, boolWord]
    grind

/-- What is under a key of the table of options has the texts that are added for it. -/
theorem tabulates_getAll {config : Config} {table : GenerationOptions}
    (h : addOptions .empty config.generation.options.entries = .ok table) (key : String) :
    config.Tabulates key (table.getAll key) := by
  have hvalues : table.getAll key =
      ((config.generation.options.get? key).bind Toml.Value.texts?).getD [] :=
    (getAll_of_addOptions config.generation.options.sorted h key).trans (List.nil_append _)
  rw [Tabulates, hvalues]
  cases hkey : config.generation.options.get? key with
  | none => rfl
  | some value =>
    have hentry := (config.generation.options.mem_entries_iff key value).2 hkey
    obtain ⟨texts, htexts⟩ :=
      Option.ne_none_iff_exists'.1 (texts?_ne_none_of_addOptions h _ hentry)
    rw [Option.bind_some, htexts]
    exact Toml.Value.texts?_eq_some_iff.1 htexts

/-- A configuration is refused just for the least key whose value has no texts. -/
theorem generationOptions_eq_error_iff {config : Config} {error : ConfigError} :
    config.generationOptions = .error error ↔
      ∃ key value, error = .unsupportedOption key ∧
        (key, value) ∈ config.generation.options.entries ∧ value.Unsupported ∧
        ∀ other more, (other, more) ∈ config.generation.options.entries → other < key →
          ¬ more.Unsupported := by
  have htable : config.generationOptions = .error error ↔
      addOptions .empty config.generation.options.entries = .error error := by
    rw [generationOptions_eq_map]
    cases addOptions .empty config.generation.options.entries <;> simp [Except.map]
  rw [htable, addOptions_eq_error_iff, SortedMap.findSome?_entries_eq_some_iff]
  simp only [Prod.exists, Prod.forall, ← Toml.Value.texts?_eq_none_iff]
  refine exists₂_congr fun key value => ?_
  constructor
  · rintro ⟨hentry, hblamed, hless⟩
    obtain ⟨hvalue, herror⟩ := Option.ite_none_right_eq_some.1 hblamed
    exact ⟨(Option.some.inj herror).symm, hentry, hvalue, fun other more hother hlt hmore =>
      Option.some_ne_none _ ((if_pos hmore).symm.trans (hless other more hother hlt))⟩
  · rintro ⟨rfl, hentry, hvalue, hless⟩
    exact ⟨hentry, if_pos hvalue, fun other more hother hlt =>
      if_neg (hless other more hother hlt)⟩

/-- **Converted options.** The options of a configuration cannot be given to plugins just if some
value in the table of options is a table, or an array with an array or a table among its items. The
key that is blamed is then the least one with such a value, in the order of the bytes of the keys.
Otherwise each key has the texts of its value in the table, one of a scalar and those of the items
of an array in order, and the inputs, the permission of cycles and the output directory of the
configuration come behind those of their keys or take their place. A key that is left without a
value, such as one with an empty array, is absent.

**Proof sketch.** The table is converted entry by entry in the order of its keys, so the first entry
without texts has the least key (`SortedMap.findSome?_entries_eq_some_iff`), and texts are in the
order of their bytes (`Text.toBytes_lt_toBytes_iff`). An entry changes the values of its own key
only (`getAll_of_addOptions`), and so does each field (`getAll_addFields`). -/
theorem generationOptions_converts (config : Config) :
    ((∃ error, config.generationOptions = .error error) ↔
      ∃ entry ∈ config.generation.options.entries, entry.2.Unsupported) ∧
    (∀ error, config.generationOptions = .error error ↔
      ∃ key value, error = .unsupportedOption key ∧
        (key, value) ∈ config.generation.options.entries ∧ value.Unsupported ∧
        ∀ other more, (other, more) ∈ config.generation.options.entries →
          Text.toBytes other < Text.toBytes key → ¬ more.Unsupported) ∧
    ∀ options, config.generationOptions = .ok options → ∀ key, ∃ table,
      config.Tabulates key table ∧
        options.values.get? key =
          if config.configured table key = [] then none
          else some (config.configured table key) := by
  simp only [Text.toBytes_lt_toBytes_iff]
  refine ⟨⟨?_, ?_⟩, fun error => generationOptions_eq_error_iff, ?_⟩
  · rintro ⟨error, herror⟩
    obtain ⟨key, value, -, hentry, hvalue, -⟩ := generationOptions_eq_error_iff.1 herror
    exact ⟨(key, value), hentry, hvalue⟩
  · rintro ⟨entry, hentry, hvalue⟩
    cases htable : addOptions .empty config.generation.options.entries with
    | error error => exact ⟨error, by rw [generationOptions_eq_map, htable]; rfl⟩
    | ok table =>
      exact absurd (Toml.Value.texts?_eq_none_iff.2 hvalue)
        (texts?_ne_none_of_addOptions htable entry hentry)
  · intro options hoptions key
    have hfilled := filled_generationOptions hoptions
    rw [generationOptions_eq_map] at hoptions
    cases htable : addOptions .empty config.generation.options.entries with
    | error error =>
      rw [htable] at hoptions
      cases hoptions
    | ok table =>
      rw [htable] at hoptions
      cases hoptions
      exact ⟨table.getAll key, tabulates_getAll htable key, by
        rw [hfilled.get?_eq, getAll_addFields]⟩

/-- A configuration that permits cycles, with scalars of all kinds, an array, an empty array and
three keys of the run among its options. -/
def mixedConfig : Config where
  generation := {
    sourceInputs := ["b.json"]
    permitsPackageCycles := true
    options := .ofList [
      ("js:names", .array [.string "x", .integer (-7), .boolean false]), ("js:tags", .array []),
      ("js:rate", .float (.ofDecimal false 1 (-6))), ("js:strict", .boolean true),
      ("js:since", .datetime (.moment ⟨2024, 2, 29⟩ ⟨7, 5, 0, 120000000⟩ (some (.minutes (-90))))),
      ("gen_output", .string "out"), ("permit_package_cycles", .string "maybe"),
      ("source_input", .string "a.json")] }

/-- A configuration in which two options have values without texts. -/
def nestedConfig : Config where
  generation := {
    options := .ofList [("js:b", .table []), ("js:a", .array [.integer 1, .array []]),
      ("js:A", .boolean true)] }

/-- What becomes of the keys of the one configuration, and the key that is blamed in the other. -/
theorem generationOptions_converts_mixedConfig :
    (∃ options, mixedConfig.generationOptions = .ok options ∧
      options.values.get? "js:names" = some ["x", "-7", "false"] ∧
      options.values.get? "js:tags" = none ∧
      options.values.get? "js:rate" = some ["0.000001"] ∧
      options.values.get? "js:strict" = some ["true"] ∧
      options.values.get? "js:since" = some ["2024-02-29T07:05:00.12-01:30"] ∧
      options.values.get? sourceInputKey = some ["a.json", "b.json"] ∧
      options.values.get? packageCyclesKey = some ["true"] ∧
      options.values.get? outputKey = some ["out"]) ∧
    nestedConfig.generationOptions = .error (.unsupportedOption "js:a") := by
  obtain ⟨options, hoptions⟩ : ∃ options, mixedConfig.generationOptions = .ok options := ⟨_, rfl⟩
  have hkey (key : String) (texts : List String) (h : mixedConfig.Tabulates key texts) :
      options.values.get? key = if mixedConfig.configured texts key = [] then none
        else some (mixedConfig.configured texts key) := by
    obtain ⟨table, htable, hvalues⟩ := (generationOptions_converts mixedConfig).2.2 _ hoptions key
    rwa [htable.unique h] at hvalues
  have hrate : (Binary64.ofDecimal false 1 (-6)).HasText "0.000001" :=
    Binary64.hasText_iff.2 (by decide +kernel)
  have hsince : (Toml.Datetime.moment ⟨2024, 2, 29⟩ ⟨7, 5, 0, 120000000⟩
      (some (.minutes (-90)))).HasText "2024-02-29T07:05:00.12-01:30".toList :=
    Toml.Datetime.hasText_iff.2 (by decide +kernel)
  refine ⟨⟨options, hoptions, ?_, ?_, ?_, ?_, ?_, ?_, ?_, ?_⟩, ?_⟩
  · exact (hkey "js:names" ["x", "-7", "false"]
      (.array (.cons .string (.cons .integer (.cons .no .nil))))).trans (by decide)
  · exact (hkey "js:tags" [] (.array .nil)).trans (by decide)
  · exact (hkey "js:rate" ["0.000001"] (.scalar (.float hrate))).trans (by decide)
  · exact (hkey "js:strict" ["true"] (.scalar .yes)).trans (by decide)
  · exact (hkey "js:since" ["2024-02-29T07:05:00.12-01:30"] (.scalar (.datetime hsince))).trans
      (by decide)
  · exact (hkey sourceInputKey ["a.json"] (.scalar .string)).trans (by decide)
  · exact (hkey packageCyclesKey ["maybe"] (.scalar .string)).trans (by decide)
  · exact (hkey outputKey ["out"] (.scalar .string)).trans (by decide)
  · refine ((generationOptions_converts nestedConfig).2.1 _).2
      ⟨"js:a", .array [.integer 1, .array []], rfl, by decide, ?_, ?_⟩
    · exact ⟨.array [], by simp, trivial⟩
    · -- only one key is less
      intro other more hentry hlt
      have hentries : nestedConfig.generation.options.entries =
          [("js:A", .boolean true), ("js:a", .array [.integer 1, .array []]),
            ("js:b", .table [])] := by decide
      rw [hentries] at hentry
      simp only [List.mem_cons, Prod.mk.injEq, List.not_mem_nil, or_false] at hentry
      rcases hentry with ⟨rfl, rfl⟩ | ⟨rfl, rfl⟩ | ⟨rfl, rfl⟩
      · exact id
      · exact absurd hlt (List.lt_irrefl _)
      · exact absurd hlt (by decide)

end Config

end SchemaForge
