import SchemaForge.CommandLine.Description
import SchemaForge.CommandLine.Settings
import SchemaForge.Log.Console
import SchemaForge.Plugin.DocumentGenerator
import SchemaForge.Plugin.Prune
set_option autoImplicit false

/-!
# Outcomes of commands

The program itself brings along a generator and a processor. The first word of a command names one
of them; the words behind it are of no account.

## Main definitions

* `SchemaForge.Outcome` — what a command leaves behind.
* `SchemaForge.Outcome.describe`, `SchemaForge.Outcome.generate` — the commands.
-/

namespace SchemaForge

/-- The plugins that the program brings along. -/
def builtinPlugins : List (Plugin Disk) := [DocumentGenerator.plugin, Prune.plugin]

/-- The plugin that the first word of a command names. -/
def builtinPlugin? (command : List String) : Option (Plugin Disk) :=
  builtinPlugins.find? fun plugin => command.head? == some plugin.name

/-- What a command leaves behind: lines on the console, documents, and the code it ends with. -/
structure Outcome where
  lines : List (ConsoleStream × String)
  documents : List (String × ByteArray)
  code : UInt32

namespace Outcome

/-- The name under which the program speaks. -/
def header : String := "schema-forge"

/-- The outcome of a command that fails. -/
def failure (message : String) : Outcome :=
  ⟨[(.diagnostics, header ++ ": " ++ message)], [], 1⟩

/-- How the program is called. -/
def usageLines : List String := [
  "Usage: schema-forge [OPTIONS] <COMMAND>",
  "",
  "Commands:",
  "  generate  Run the plugins over a schema",
  "  describe  Print the options every plugin understands"]

/-- The outcome of a command line that is turned down. -/
def usage (error : UsageError) : Outcome :=
  match error with
  | .versionRequested => ⟨[(.output, header ++ " 0.1.0")], [], 0⟩
  | .helpRequested => ⟨usageLines.map fun line => (.output, line), [], 0⟩
  | _ => ⟨usageLines.map fun line => (.diagnostics, line), [], 2⟩

/-- The plugins for commands, or the first command without one. -/
def pluginsFor : List (List String) → Except String (List (Plugin Disk))
  | [] => .ok []
  | command :: commands => do
    match builtinPlugin? command with
    | none => .error ("There is no plugin for `" ++ " ".intercalate command ++ "`")
    | some plugin => return plugin :: (← pluginsFor commands)

/-- The outcome of asking for the options. -/
def describe (commands : List (List String)) : Outcome :=
  match pluginsFor commands with
  | .error message => failure message
  | .ok plugins =>
    ⟨(Description.lines (plugins.map Plugin.metadata)).map fun line => (.output, line), [], 0⟩

/-- The console line for an entry in a journal. -/
def entryLine (debug : Bool) (entry : Entry) : Option (ConsoleStream × String) :=
  let name :=
    match entry.audience with
    | .orchestrator => header
    | .plugin name => name
  (Console.mk name debug).render entry.record

/-- The failure of a run, or that it does not end. -/
def haltMessage : Halt RunError → String
  | .failed error => error.message
  | .stalled => "The run does not end"

/-- The records that close a run: a warning for each plugin whose errors were ignored, and that the
run is complete. -/
def closingRecords (report : RunReport) : List LogRecord :=
  (report.plugins.filter fun plugin => 0 < plugin.errors).map (fun plugin =>
    ⟨.warn, plugin.name ++ " reported " ++ toString plugin.errors ++ " error(s), ignored"⟩) ++
    [⟨.lifecycle, "Generated with " ++ toString report.plugins.length ++ " plugin(s)."⟩]

/-- The outcome of a run over a schema. -/
def run (settings : GenerateSettings) (debug : Bool) (plugins : List (Plugin Disk))
    (files : List SchemaFile) : Outcome :=
  let run : Run Disk := ⟨plugins, settings.policy, settings.generationLimit, debug⟩
  let (result, journal) := (run.generate files settings.options).run ⟨Disk.empty, []⟩
  let (closing, code) : List (ConsoleStream × String) × UInt32 :=
    match result with
    | .error halt => ((failure (haltMessage halt)).lines, 1)
    | .ok report => ((closingRecords report).filterMap (Console.mk header debug).render, 0)
  ⟨journal.entries.filterMap (entryLine debug) ++ closing,
    journal.world.documents.map fun (place, content) => ("/".intercalate place, content), code⟩

/-- The outcome of generating code, given the content of the schema document if there is one. -/
def generate (settings : GenerateSettings) (debug : Bool) (schema : Option ByteArray) : Outcome :=
  match schema.map decodeSchema, pluginsFor settings.commands with
  | none, _ | some (.error _), _ => failure ("Failed to read schema: " ++ settings.schema)
  | _, .error message => failure message
  | some (.ok files), .ok plugins => run settings debug plugins files

end Outcome

end SchemaForge
