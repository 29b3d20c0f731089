import SchemaForge.Generation.Descriptor
import SchemaForge.Generation.SortedMap
import SchemaForge.Path
import SchemaForge.Text.Quoted
set_option autoImplicit false

/-!
# Generation options

The options of a run map keys to lists of values. A plugin named `p` is given the options whose
keys begin with `p:`, without this beginning, and a part of the output directory of its own.

## Main definitions

* `SchemaForge.GenerationOptions` — keys with their values.
* `SchemaForge.GenerationOptions.put`, `SchemaForge.GenerationOptions.append` — writing values.
* `SchemaForge.GenerationOptions.scopedFor` — the options a plugin is given.
* `SchemaForge.GenerationOptions.baseOptions` — the options that belong to no plugin.
-/

namespace SchemaForge

/-- The options of a run, or of one plugin: the values of each key, in order. -/
structure GenerationOptions where
  values : SortedMap (List String)
  deriving DecidableEq, Repr, Inhabited

namespace GenerationOptions

/-! ### Keys of the run -/

/-- The key of the schemas to generate code for. -/
def sourceInputKey : String := "source_input"

/-- The key of the schemas that are only referred to. -/
def contextInputKey : String := "context_input"

/-- The key that allows packages to depend on each other in cycles. -/
def packageCyclesKey : String := "permit_package_cycles"

/-- The key of the output directory. -/
def outputKey : String := "gen_output"

/-- The options that belong to no plugin. -/
def baseOptions : List OptionDescriptor := [
  (OptionDescriptor.single sourceInputKey "Schema sources to generate code for." .path).repeatable,
  (OptionDescriptor.single contextInputKey
    "Schema sources used for resolution only; no code is generated for them." .path).repeatable,
  .single packageCyclesKey "Allow cyclic dependencies between packages." .boolean,
  .single outputKey
    "Directory for generated code. Each plugin writes to <gen_output>/<plugin name>." .path]

/-! ### Values -/

/-- No options at all. -/
def empty : GenerationOptions := ⟨.empty⟩

/-- All the values of `key`, in order. -/
def getAll (options : GenerationOptions) (key : String) : List String :=
  (options.values.get? key).getD []

/-- The first value of `key`. -/
def get? (options : GenerationOptions) (key : String) : Option String := (options.getAll key).head?

/-- Whether the first value of `key` is `true`, if it has one. -/
def flag? (options : GenerationOptions) (key : String) : Option Bool :=
  (options.get? key).map (· == "true")

/-- Whether `key` is present. -/
def contains (options : GenerationOptions) (key : String) : Bool := options.values.contains key

/-- The options with `value` as the only value of `key`. -/
def put (options : GenerationOptions) (key value : String) : GenerationOptions :=
  ⟨options.values.insert key [value]⟩

/-- The options with `value` behind the other values of `key`. -/
def append (options : GenerationOptions) (key value : String) : GenerationOptions :=
  ⟨options.values.insert key (options.getAll key ++ [value])⟩

/-- The options with all the values behind the other values of `key`. -/
def appendAll (options : GenerationOptions) (key : String) (values : List String) :
    GenerationOptions :=
  values.foldl (fun options value => options.append key value) options

/-- The values of `key`, if it is present, and the options without it. -/
def remove (options : GenerationOptions) (key : String) :
    Option (List String) × GenerationOptions :=
  (options.values.get? key, ⟨options.values.erase key⟩)

/-- The options with a value for each of the pairs; the values of one key keep their order. -/
def ofPairs (pairs : List (String × String)) : GenerationOptions :=
  pairs.foldl (fun options pair => options.append pair.1 pair.2) empty

/-- The keys with their values, in order of the keys. -/
def raw (options : GenerationOptions) : List (String × List String) := options.values.entries

/-- The output directory. -/
def output? (options : GenerationOptions) : Option String := options.get? outputKey

/-- Whether packages may depend on each other in cycles. -/
def permitsPackageCycles (options : GenerationOptions) : Bool :=
  (options.flag? packageCyclesKey).getD false

/-! ### Scopes -/

/-- The key a plugin sees for `key`: what follows its name and a colon, if there is anything. -/
def scopedKey? (plugin key : String) : Option String :=
  match Text.dropStart? (plugin.toList ++ [':']) key.toList with
  | none | some [] => none
  | some rest => some (String.ofList rest)

/-- The options that belong to the plugin, under the keys it sees. -/
def ownOptions (options : GenerationOptions) (plugin : String) : GenerationOptions :=
  ⟨.ofList (options.raw.filterMap fun (key, values) =>
    (scopedKey? plugin key).map fun own => (own, values))⟩

/-- The word for a truth value. -/
def boolWord (b : Bool) : String := if b then "true" else "false"

/-- The options that the plugin is given: its own ones, whether package cycles are permitted, and
the directory with its name in the output directory. -/
def scopedFor (options : GenerationOptions) (plugin : String) : GenerationOptions :=
  let own :=
    (options.ownOptions plugin).put packageCyclesKey (boolWord options.permitsPackageCycles)
  match options.output? with
  | none => own
  | some root => own.put outputKey (Path.join root plugin)

/-- The options as a record in a debug message. -/
def debugText (options : GenerationOptions) : String :=
  "GenerationOptions \x7b values: \x7b" ++
    Text.commaSeparated (options.raw.map fun (key, values) =>
      Text.quote key ++ ": " ++ Text.quoteList values) ++ "\x7d \x7d"

end GenerationOptions

end SchemaForge
