import SchemaForge.Generation.Duration
import SchemaForge.Generation.Options
import SchemaForge.Text.Blank
import SchemaForge.Toml.Value
set_option autoImplicit false

/-!
# Configurations

A configuration says what a run is to do where its arguments do not. Every part of it has a default
value.

## Main definitions

* `SchemaForge.Config` — a configuration, in four sections.
* `SchemaForge.Config.pluginCommands` — the commands that start the plugins.
* `SchemaForge.Config.generationOptions` — the options of a run.
-/

namespace SchemaForge

/-- What a run works on, and its options. -/
structure Config.Generation where
  /-- The document with the schema. -/
  schema : Option String := none
  /-- The directory for generated code. -/
  output : Option String := none
  /-- Whether packages may depend on each other in cycles. -/
  permitsPackageCycles : Bool := false
  /-- The schemas to generate code for. -/
  sourceInputs : List String := []
  /-- The schemas that are only referred to. -/
  contextInputs : List String := []
  /-- Options of plugins: texts, numbers and the like, or arrays of them. -/
  options : SortedMap Toml.Value := .empty
  deriving DecidableEq, Repr, Inhabited

/-- How much is logged. -/
structure Config.Logging where
  /-- The name of the level of diagnostics. -/
  level : String := "info"
  /-- Whether details of the plugins' work are shown. -/
  debug : Bool := false
  deriving DecidableEq, Repr, Inhabited

/-- The plugins of a run. -/
structure Config.Plugins where
  /-- The commands that start them, in order. -/
  commands : List String := []
  /-- Whether the run goes on behind a plugin that logs errors. -/
  ignoreErrors : Bool := false
  deriving DecidableEq, Repr, Inhabited

/-- Time limits in seconds. -/
structure Config.Timeouts where
  /-- The limit for starting the plugins. -/
  handshake : Option UInt64 := none
  /-- The limit for the work of one plugin. -/
  generation : Option UInt64 := none
  deriving DecidableEq, Repr, Inhabited

/-- A configuration. -/
structure Config where
  generation : Config.Generation := {}
  logging : Config.Logging := {}
  plugins : Config.Plugins := {}
  timeouts : Config.Timeouts := {}
  deriving DecidableEq, Repr, Inhabited

/-- Why a configuration cannot be used. -/
inductive ConfigError where
  /-- It is not the document of a configuration. -/
  | malformed
  /-- The option of a plugin has a value that plugins cannot be given. -/
  | unsupportedOption (key : String)
  deriving DecidableEq, Repr, Inhabited

/-- The text of a failure. -/
def ConfigError.message : ConfigError → String
  | .malformed => "Failed to parse config file"
  | .unsupportedOption key =>
    "Unsupported value for option " ++ key ++ ": tables are not allowed"

/-! ### Values of options -/

/-- The text of a value without other values in it. -/
def Toml.Value.scalarText? : Toml.Value → Option String
  | .string s => some s
  | .integer n => some (toString n)
  | .float number => some number.text
  | .boolean b => some (GenerationOptions.boolWord b)
  | .datetime moment => some moment.text
  | .array _ | .table _ => none

/-- The texts of a value: of the value itself, or of each item of an array. Neither a table nor an
array with arrays or tables in it has texts. -/
def Toml.Value.texts? : Toml.Value → Option (List String)
  | .array items => items.mapM Toml.Value.scalarText?
  | value => value.scalarText?.map ([·])

/-! ### Runs -/

namespace Config

/-- A time limit. -/
def limit (seconds : Option UInt64) : Option Duration :=
  seconds.map fun n => .ofSeconds n.toNat

/-- The words of each of the command lines that have any. -/
def commandsOf (lines : List String) : List (List String) :=
  (lines.map Text.words).filter (· ≠ [])

/-- The commands that start the plugins. -/
def pluginCommands (config : Config) : List (List String) := commandsOf config.plugins.commands

/-- The options of a run with the texts of the values behind the others. -/
def addOptions (options : GenerationOptions) :
    List (String × Toml.Value) → Except ConfigError GenerationOptions
  | [] => .ok options
  | (key, value) :: entries =>
    match value.texts? with
    | none => .error (.unsupportedOption key)
    | some texts => addOptions (options.appendAll key texts) entries

/-- The options of a run. The sections' own fields come behind what the table of options says under
the same key, or take its place. -/
def generationOptions (config : Config) : Except ConfigError GenerationOptions := do
  let generation := config.generation
  let options ← addOptions .empty generation.options.entries
  let options := options.appendAll GenerationOptions.sourceInputKey generation.sourceInputs
  let options := options.appendAll GenerationOptions.contextInputKey generation.contextInputs
  let options := options.put GenerationOptions.packageCyclesKey
    (GenerationOptions.boolWord generation.permitsPackageCycles)
  match generation.output with
  | none => return options
  | some path => return options.put GenerationOptions.outputKey path

end Config

end SchemaForge
