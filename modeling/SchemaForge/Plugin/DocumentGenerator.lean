import SchemaForge.Plugin.Basic
import SchemaForge.Schema.Store
set_option autoImplicit false

/-!
# The generator of JSON documents

The generator writes each file of the schema as a document of its own, below the output directory
and under the name of the file with another extension.

## Main definitions

* `SchemaForge.DocumentGenerator.outputPath` — where the document of a file is written.
* `SchemaForge.DocumentGenerator.plugin` — the generator.
-/

namespace SchemaForge.DocumentGenerator

/-- The option that asks for documents laid out over lines. -/
def prettyKey : String := "pretty"

/-- Where the document for the file called `name` is written. There is no place for it where the
name leads out of the directory `root`. -/
def outputPath (root name : String) : Option String :=
  let path := Path.withExtension "json" name
  if Path.isBelow path then some (Path.join root path) else none

/-- The text of the document for a file. -/
def render (pretty : Bool) (file : SchemaFile) : String :=
  if pretty then file.toJson.pretty else file.toJson.compact

/-- The disk with a document at `path`, and with the directories above it. -/
def put (disk : Disk) (path : String) (text : String) : Except FileError Disk := do
  (← disk.createParents path).write path text.toUTF8

/-- Writes the document for a file. -/
def writeFile (root : String) (pretty : Bool) (logger : Logger) (file : SchemaFile) :
    Work Disk PluginError Unit := do
  match outputPath root file.name with
  | none =>
    Work.fail (.failed ("file name " ++ Text.quote file.name ++ " leaves the output folder"))
  | some path =>
    match put (← Work.world) path (render pretty file) with
    | .error error => Work.fail (.disk error)
    | .ok disk =>
      Work.setWorld disk
      logger.detail ("Wrote " ++ path)

/-- Writes the documents for files, one after the other. -/
def writeFiles (root : String) (pretty : Bool) (logger : Logger) :
    List SchemaFile → Work Disk PluginError Unit
  | [] => pure ()
  | file :: files => do
    writeFile root pretty logger file
    writeFiles root pretty logger files

/-- Writes the documents for all the files of the schema. -/
def generate (call : Call) : Work Disk PluginError Unit := do
  match call.options.output? with
  | none => Work.fail (.missingOption GenerationOptions.outputKey)
  | some root =>
    let pretty := (call.options.flag? prettyKey).getD false
    writeFiles root pretty call.logger call.files
    call.logger.progress
      ("Wrote " ++ toString call.files.length ++ " file(s) to " ++ root)

/-- The generator. -/
def plugin : Plugin Disk where
  name := "json"
  description := "Writes the schema each plugin receives as JSON documents."
  options := [.single prettyKey "Indent the written JSON." .boolean]
  task := .generator generate

end SchemaForge.DocumentGenerator
