import SchemaForge.Disk
import SchemaForge.Plugin.Work
import SchemaForge.Wire.Channel
set_option autoImplicit false

/-!
# Plugins

A plugin is called with its options and a schema. A generator writes code somewhere in the world; a
processor gives back the schema for the plugins behind it.

## Main definitions

* `SchemaForge.PluginError` — why a plugin fails.
* `SchemaForge.Plugin` — what a plugin says of itself, and what it does.
* `SchemaForge.Plugin.run` — a call of a plugin of either role.
-/

namespace SchemaForge

/-- How the order of messages is broken. -/
inductive ProtocolFault where
  /-- Another request came than the one whose turn it was. -/
  | unexpectedRequest (expected got : String)
  /-- A plugin gave an answer that its role does not give. -/
  | unexpectedReply (plugin got expected : String)
  /-- Some other fault, as described. -/
  | described (text : String)
  deriving DecidableEq, Repr, Inhabited

/-- The description of a fault. -/
def ProtocolFault.text : ProtocolFault → String
  | .unexpectedRequest expected got => "expected " ++ expected ++ ", got " ++ got
  | .unexpectedReply plugin got expected =>
    "`" ++ plugin ++ "` answered " ++ got ++ " instead of " ++ expected
  | .described text => text

/-- Why a plugin fails. -/
inductive PluginError where
  /-- Messages cannot be exchanged. -/
  | transport (error : Wire.TransportError)
  /-- The disk cannot be accessed. -/
  | disk (error : FileError)
  /-- The order of messages is broken. -/
  | protocol (fault : ProtocolFault)
  /-- A needed option has no value. -/
  | missingOption (key : String)
  /-- A value is not of the kind of its option. -/
  | invalidOption (key value : String)
  /-- The plugin has been called before, and serves one call. -/
  | alreadyFinished (plugin : String)
  /-- The plugin cannot complete its work. -/
  | failed (text : String)
  /-- Any other failure, as described. -/
  | other (text : String)
  deriving DecidableEq, Repr, Inhabited

/-- The text of a failure. -/
def PluginError.message : PluginError → String
  | .transport error => "Transport error: " ++ error.message
  | .disk error => "I/O error: " ++ error.message
  | .protocol fault => "Protocol error: " ++ fault.text
  | .missingOption key => "Missing option: " ++ key
  | .invalidOption key value => "Invalid value " ++ Text.quote value ++ " for option " ++ key
  | .alreadyFinished plugin => "Plugin " ++ plugin ++ " has already finished"
  | .failed text => "Generation failed: " ++ text
  | .other text => text

/-- What a plugin is called with. -/
structure Call where
  options : GenerationOptions
  files : List SchemaFile
  logger : Logger
  deriving DecidableEq, Repr

/-- What a plugin does in a world of type `σ`. -/
inductive PluginTask (σ : Type) where
  /-- It writes code. -/
  | generator (generate : Call → Work σ PluginError Unit)
  /-- It gives back a changed schema. -/
  | processor (process : Call → Work σ PluginError (List SchemaFile))

/-- The role that the task gives to a plugin. -/
def PluginTask.role {σ : Type} : PluginTask σ → Role
  | .generator _ => .generator
  | .processor _ => .processor

/-- A plugin in a world of type `σ`. -/
structure Plugin (σ : Type) where
  name : String
  description : String
  options : List OptionDescriptor
  task : PluginTask σ

namespace Plugin

variable {σ τ : Type}

/-- What the plugin is for. -/
def role (plugin : Plugin σ) : Role := plugin.task.role

/-- How the plugin describes itself. -/
def metadata (plugin : Plugin σ) : Metadata :=
  ⟨plugin.name, plugin.description, plugin.options, plugin.role⟩

/-- The plugin as a record in a debug message. -/
def debugText (plugin : Plugin σ) : String :=
  "HostedPlugin \x7b name: " ++ Text.quote plugin.name ++ ", role: " ++ plugin.role.word ++ " \x7d"

/-- Calls the plugin. The result is the schema it gives back, which a generator does not. -/
def run (plugin : Plugin σ) (call : Call) : Work σ PluginError (Option (List SchemaFile)) :=
  match plugin.task with
  | .generator generate => do
    generate call
    return none
  | .processor process => do return some (← process call)

/-- The same plugin in a larger world. -/
def within (part : σ → τ) (replace : σ → τ → σ) (plugin : Plugin τ) : Plugin σ where
  name := plugin.name
  description := plugin.description
  options := plugin.options
  task := match plugin.task with
    | .generator generate => .generator fun call => (generate call).within part replace
    | .processor process => .processor fun call => (process call).within part replace

end Plugin

end SchemaForge
