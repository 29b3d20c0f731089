import SchemaForge.Generation.Duration
import SchemaForge.Generation.Validation
set_option autoImplicit false

/-!
# Runs

A run hands a schema to its plugins one after the other. Each plugin is given the options of its
scope; what a processor gives back goes to the plugins behind it. Errors that a plugin logs end the
run behind this plugin, unless they are to be ignored.

## Main definitions

* `SchemaForge.RunError` — why a run fails.
* `SchemaForge.ErrorPolicy` — what logged errors mean for a run.
* `SchemaForge.Run` — the plugins of a run, and its rules.
* `SchemaForge.Run.generate` — the run over a schema.
-/

namespace SchemaForge

/-- The parts of a run that time limits apply to. -/
inductive Phase where
  /-- Starting the plugins. -/
  | handshake
  /-- The work of one plugin. -/
  | generation
  deriving DecidableEq, Repr, Inhabited

/-- The word for a phase. -/
def Phase.word : Phase → String
  | .handshake => "handshake"
  | .generation => "generation"

/-- A time limit that was exceeded. -/
structure Timeout where
  phase : Phase
  /-- The plugin whose work took too long, where it is a single one. -/
  plugin : Option String
  limit : Duration
  deriving DecidableEq, Repr, Inhabited

/-- The text for an exceeded time limit. -/
def Timeout.message (timeout : Timeout) : String :=
  timeout.phase.word ++ " timed out after " ++ timeout.limit.text ++
    match timeout.plugin with
    | none => ""
    | some name => " in plugin " ++ name

/-- Why a run fails. -/
inductive RunError where
  /-- There is no output directory. -/
  | missingOutput
  /-- The options are not in order. -/
  | options (fault : OptionFault)
  /-- A plugin failed. -/
  | plugin (name : String) (error : PluginError)
  /-- A plugin logged errors. -/
  | reportedErrors (plugin : String) (count : Nat)
  /-- A time limit was exceeded. -/
  | timeout (timeout : Timeout)
  deriving DecidableEq, Repr, Inhabited

/-- The text of a failure. -/
def RunError.message : RunError → String
  | .missingOutput => "No generation output folder is provided (option gen_output)"
  | .options fault => fault.message
  | .plugin name error => "Plugin " ++ name ++ " failed: " ++ error.message
  | .reportedErrors name count =>
    "Plugin " ++ name ++ " reported " ++ toString count ++ " error(s), finishing the generation"
  | .timeout exceeded => exceeded.message

/-- What errors that a plugin logs mean for the run. -/
inductive ErrorPolicy where
  /-- The run ends behind the plugin. -/
  | abort
  /-- The run goes on. -/
  | ignore
  deriving DecidableEq, Repr, Inhabited

namespace ErrorPolicy

/-- The policy of a run that is not told what to do. -/
def default : ErrorPolicy := .abort

/-- The policy that ignores errors if this is wanted. -/
def ofIgnoreErrors (ignoreErrors : Bool) : ErrorPolicy := if ignoreErrors then .ignore else .abort

/-- The word for a policy. -/
def word : ErrorPolicy → String
  | .abort => "Abort"
  | .ignore => "Ignore"

end ErrorPolicy

/-- How many of the records are errors. -/
def countErrors (records : List LogRecord) : Nat := records.countP (·.level == .error)

/-- What has become of one plugin in a run. -/
structure PluginReport where
  name : String
  role : Role
  /-- How many errors it logged. -/
  errors : Nat
  deriving DecidableEq, Repr, Inhabited

/-- What has become of a run: the schema behind the last processor, and the plugins. -/
structure RunReport where
  files : List SchemaFile
  plugins : List PluginReport
  deriving DecidableEq, Repr

/-- How many errors all the plugins logged. -/
def RunReport.totalErrors (report : RunReport) : Nat :=
  (report.plugins.map PluginReport.errors).foldr (· + ·) 0

/-- The plugins of a run in a world of type `σ`, in order, and the rules of the run. -/
structure Run (σ : Type) where
  plugins : List (Plugin σ)
  policy : ErrorPolicy
  /-- How long each plugin may work. -/
  limit : Option Duration
  /-- Whether details of the plugins' work are wanted. -/
  debug : Bool

namespace Run

variable {σ : Type}

/-- How the plugins describe themselves. -/
def metadata (run : Run σ) : List Metadata := run.plugins.map Plugin.metadata

/-- The work of a plugin within the time limit, and the records it logged. -/
def supervise {α : Type} (run : Run σ) (name : String) (work : Work σ PluginError α) :
    Work σ RunError (α × List LogRecord) := fun journal =>
  let (result, last) := work.run ⟨journal.world, []⟩
  let journal := ⟨last.world, journal.entries ++ last.entries⟩
  match result, run.limit with
  | .ok a, _ => (.ok (a, last.entries.map Entry.record), journal)
  | .error (.failed error), _ => (.error (.failed (.plugin name error)), journal)
  | .error .stalled, some limit =>
    (.error (.failed (.timeout ⟨.generation, some name, limit⟩)), journal)
  | .error .stalled, none => (.error .stalled, journal)

/-- Calls a plugin within the run. The result is the schema for the plugins behind it. -/
def callPlugin (run : Run σ) (options : GenerationOptions) (plugin : Plugin σ)
    (files : List SchemaFile) : Work σ RunError (List SchemaFile × PluginReport) := do
  let logger : Logger := ⟨.plugin plugin.name, run.debug⟩
  let call : Call := ⟨options.scopedFor plugin.name, files, logger⟩
  let (changed?, records) ← run.supervise plugin.name (plugin.run call)
  let errors := countErrors records
  if 0 < errors && run.policy = .abort then Work.fail (.reportedErrors plugin.name errors)
  return (changed?.getD files, ⟨plugin.name, plugin.role, errors⟩)

/-- Calls plugins one after the other. -/
def callAll (run : Run σ) (options : GenerationOptions) :
    List (Plugin σ) → List SchemaFile → Work σ RunError RunReport
  | [], files => return ⟨files, []⟩
  | plugin :: plugins, files => do
    let (files, report) ← run.callPlugin options plugin files
    let rest ← run.callAll options plugins files
    return ⟨rest.files, report :: rest.plugins⟩

/-- The run over a schema. Nothing is called unless there is an output directory and the options
are in order. -/
def generate (run : Run σ) (files : List SchemaFile) (options : GenerationOptions) :
    Work σ RunError RunReport := do
  if options.output?.isNone then Work.fail .missingOutput
  match validateOptions run.metadata options with
  | .error fault => Work.fail (.options fault)
  | .ok () => run.callAll options run.plugins files

end Run

end SchemaForge
