import SchemaForge.Plugin.Basic
set_option autoImplicit false

/-!
# Plugins that follow a script

A script is a list of steps on the schema a plugin is called with. It serves to try out how plugins
work together. What such plugins are called with is noted down.

## Main definitions

* `SchemaForge.Script.Step` — a step of a script.
* `SchemaForge.Script.follow` — what a script does.
-/

namespace SchemaForge.Script

/-- A way to write a log record. -/
inductive LogCall where
  /-- A record of any level. -/
  | record (level : Level)
  /-- A detail, which is written only if details are wanted. -/
  | detail
  deriving DecidableEq, Repr, Inhabited

/-- A step of a script. -/
inductive Step where
  /-- Writes a log record. -/
  | log (call : LogCall) (text : String)
  /-- Drops the first file. -/
  | dropFirst
  /-- Reverses the order of the files. -/
  | reverse
  /-- Puts a copy of the files behind them. -/
  | duplicate
  /-- Puts a text in front of the name of every file. -/
  | rename (lead : String)
  /-- Never goes on. -/
  | hang
  /-- Fails. -/
  | fail (error : PluginError)
  deriving DecidableEq, Repr, Inhabited

/-- What a plugin has been called with. -/
structure Sighting where
  plugin : String
  options : GenerationOptions
  files : List String
  deriving DecidableEq, Repr, Inhabited

variable {σ ε : Type}

/-- Writes a record in the given way. -/
def LogCall.run (call : LogCall) (logger : Logger) (text : String) : Work σ ε Unit :=
  match call with
  | .record level => logger.log ⟨level, text⟩
  | .detail => logger.detail text

/-- What a step makes of files. -/
def Step.run (logger : Logger) (files : List SchemaFile) :
    Step → Work σ PluginError (List SchemaFile)
  | .log call text => do
    call.run logger text
    return files
  | .dropFirst => return files.tail
  | .reverse => return files.reverse
  | .duplicate => return files ++ files
  | .rename lead => return files.map fun file => { file with name := lead ++ file.name }
  | .hang => Work.stall
  | .fail error => Work.fail error

/-- Notes down the call and takes the steps one after the other. -/
def follow (name : String) (steps : List Step) (call : Call) :
    Work (List Sighting) PluginError (List SchemaFile) := do
  Work.setWorld ((← Work.world) ++ [⟨name, call.options, call.files.map SchemaFile.name⟩])
  steps.foldlM (Step.run call.logger) call.files

/-- The task of a plugin that follows a script. -/
def task (name : String) (steps : List Step) : Role → PluginTask (List Sighting)
  | .generator => .generator fun call => do
    let _ ← follow name steps call
  | .processor => .processor (follow name steps)

end SchemaForge.Script
