import SchemaForge.CommandLine.Arguments
import SchemaForge.Config.Basic
import SchemaForge.Generation.Run
import SchemaForge.Log.Verbosity
set_option autoImplicit false

/-!
# Settings of a run

The arguments of a command line are merged over a configuration. What an argument says counts more,
and the plugins that arguments name take the place of those of the configuration.

## Main definitions

* `SchemaForge.GenerateSettings` — all that a run needs.
* `SchemaForge.SettingsError` — why there are no settings.
* `SchemaForge.GenerateSettings.resolve` — arguments merged over a configuration.
* `SchemaForge.Arguments.verbosity` — the level of diagnostics.
-/

namespace SchemaForge

/-- Why there are no settings. -/
inductive SettingsError where
  /-- No schema is named. -/
  | missingSchema
  /-- No plugin is named. -/
  | noPlugins
  /-- The argument for an option of a plugin is not a key and a value. -/
  | invalidOption (argument : String)
  /-- The configuration cannot be used. -/
  | config (error : ConfigError)
  deriving DecidableEq, Repr, Inhabited

/-- The text of a failure. -/
def SettingsError.message : SettingsError → String
  | .missingSchema => "No schema given, use --schema or [generation] schema"
  | .noPlugins => "No plugins given, use --plugin or [plugins] commands"
  | .invalidOption argument =>
    "Invalid option argument " ++ Text.quote argument ++ ", expected <plugin>:<key>=<value>"
  | .config error => error.message

/-- The key and the value in an argument: they stand on both sides of its first equals sign, and
the key is not blank. -/
def optionOfArgument (argument : String) : Except SettingsError (String × String) :=
  match Text.splitFirst '=' argument with
  | none => .error (.invalidOption argument)
  | some (key, value) =>
    if Text.isBlankText key then .error (.invalidOption argument) else .ok (Text.trim key, value)

/-- The keys and values in arguments. -/
def optionsOfArguments : List String → Except SettingsError (List (String × String))
  | [] => .ok []
  | argument :: arguments => do
    let first ← optionOfArgument argument
    return first :: (← optionsOfArguments arguments)

/-- The commands that start the plugins: those of the arguments if there are any, and those of the
configuration if not. -/
def pluginCommands (plugins : List String) (config : Config) :
    Except SettingsError (List (List String)) :=
  let commands := if plugins = [] then config.pluginCommands else Config.commandsOf plugins
  if commands = [] then .error .noPlugins else .ok commands

/-- All that a run needs. -/
structure GenerateSettings where
  /-- The document with the schema. -/
  schema : String
  /-- The commands that start the plugins, in order. -/
  commands : List (List String)
  options : GenerationOptions
  policy : ErrorPolicy
  /-- The limit for starting the plugins. -/
  handshakeLimit : Option Duration
  /-- The limit for the work of one plugin. -/
  generationLimit : Option Duration
  deriving DecidableEq, Repr, Inhabited

namespace GenerateSettings

/-- The options with all values of each of the keys replaced. -/
def override (options : GenerationOptions) (entries : List (String × List String)) :
    GenerationOptions :=
  entries.foldl (fun options (key, values) => (options.remove key).2.appendAll key values) options

/-- The options of a configuration with what the arguments say about them. -/
def mergeOptions (arguments : GenerateArguments) (options overrides : GenerationOptions) :
    GenerationOptions :=
  let options := override options overrides.raw
  let options := options.appendAll GenerationOptions.sourceInputKey arguments.sourceInputs
  let options := options.appendAll GenerationOptions.contextInputKey arguments.contextInputs
  let options :=
    if arguments.permitsPackageCycles then options.put GenerationOptions.packageCyclesKey "true"
    else options
  match arguments.output with
  | none => options
  | some path => options.put GenerationOptions.outputKey path

/-- The options of a configuration, or what is wrong with them. -/
def configOptions (config : Config) : Except SettingsError GenerationOptions :=
  config.generationOptions.mapError .config

/-- The schema that is named. -/
def schemaOf (arguments : GenerateArguments) (config : Config) : Except SettingsError String :=
  match arguments.schema <|> config.generation.schema with
  | none => .error .missingSchema
  | some path => .ok path

/-- The arguments merged over a configuration. -/
def resolve (arguments : GenerateArguments) (config : Config) :
    Except SettingsError GenerateSettings := do
  let schema ← schemaOf arguments config
  let commands ← pluginCommands arguments.plugins config
  let options ← configOptions config
  let overrides := GenerationOptions.ofPairs (← optionsOfArguments arguments.options)
  return {
    schema
    commands
    options := mergeOptions arguments options overrides
    policy := .ofIgnoreErrors (arguments.ignoreErrors || config.plugins.ignoreErrors)
    handshakeLimit := Config.limit config.timeouts.handshake
    generationLimit := Config.limit config.timeouts.generation }

end GenerateSettings

/-- Whether details of the plugins' work are shown. -/
def Arguments.showsDetails (arguments : Arguments) (config : Config) : Bool :=
  arguments.debug || config.logging.debug

/-- The level of diagnostics. A name that is not known stands for the usual level. -/
def Arguments.verbosity (arguments : Arguments) (config : Config) : Verbosity :=
  if arguments.showsDetails config then .debug
  else (Verbosity.ofName? (arguments.logLevel.getD config.logging.level)).getD .info

end SchemaForge
