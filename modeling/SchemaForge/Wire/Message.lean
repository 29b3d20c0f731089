import SchemaForge.Generation.Options
import SchemaForge.Wire.Schema
set_option autoImplicit false

/-!
# The messages between an orchestrator and its plugins

The orchestrator asks a plugin to describe itself and then hands it a schema. The plugin answers
both, and may send records of its log at any time. An answer carries the id of what it answers.

## Main definitions

* `SchemaForge.Request`, `SchemaForge.Reply` — the messages of the two directions.
* `SchemaForge.Metadata` — how a plugin describes itself.
* `SchemaForge.LogRecord`, `SchemaForge.Level` — records of a log.
* `SchemaForge.requestId` — the ids an orchestrator gives its requests.
-/

namespace SchemaForge

open Wire

/-- The severity of a log record. -/
inductive Level where
  /-- Diagnostic detail. -/
  | debug
  /-- Progress. -/
  | lifecycle
  /-- Something looks wrong, and generation goes on. -/
  | warn
  /-- Generation produced an error. -/
  | error
  deriving DecidableEq, Repr, Inhabited

/-- The word for a level in a log. -/
def Level.word : Level → String
  | .debug => "DEBUG"
  | .lifecycle => "LIFECYCLE"
  | .warn => "WARN"
  | .error => "ERROR"

/-- A record of a log. -/
structure LogRecord where
  level : Level
  text : String
  deriving DecidableEq, Repr, Inhabited

/-- What a plugin does with a schema. -/
inductive Role where
  /-- It writes code. -/
  | generator
  /-- It changes the schema for the plugins after it. -/
  | processor
  deriving DecidableEq, Repr, Inhabited

/-- The word for a role. -/
def Role.word : Role → String
  | .generator => "Generator"
  | .processor => "Processor"

/-- How a plugin describes itself. -/
structure Metadata where
  name : String
  description : String
  options : List OptionDescriptor
  role : Role
  deriving DecidableEq, Repr, Inhabited

/-- What an orchestrator asks for. -/
inductive Request.Body where
  /-- The plugin is to describe itself. -/
  | fetchMetadata
  /-- The plugin is to work on the files with its options. -/
  | sendInput (files : List SchemaFile) (options : GenerationOptions)
  deriving DecidableEq, Repr

/-- A message of an orchestrator. -/
structure Request where
  id : String
  body : Request.Body
  deriving DecidableEq, Repr

/-- What a plugin says. -/
inductive Reply.Body where
  /-- It describes itself. -/
  | metadata (metadata : Metadata)
  /-- It sends a record of its log. -/
  | log (record : LogRecord)
  /-- It has written code. -/
  | codeGenerated
  /-- It has changed the schema. -/
  | changedInput (files : List SchemaFile)
  deriving DecidableEq, Repr

/-- A message of a plugin. -/
structure Reply where
  id : String
  body : Reply.Body
  deriving DecidableEq, Repr

/-- The name of what is asked for. -/
def Request.Body.kind : Request.Body → String
  | .fetchMetadata => "FetchMetadata"
  | .sendInput _ _ => "SendInput"

/-- The name of what is said. -/
def Reply.Body.kind : Reply.Body → String
  | .metadata _ => "SendMetaInformation"
  | .log _ => "LogMessage"
  | .codeGenerated => "CodeGenerated"
  | .changedInput _ => "ChangedInput"

/-- The message for a log record, which answers nothing. -/
def Reply.ofRecord (record : LogRecord) : Reply := ⟨"", .log record⟩

/-- The id of the request that `count` others went before. -/
def requestId (count : Nat) : String := toString (count + 1)

/-! ### Binary forms -/

instance : Wire OptionKind where
  encode
    | .text => choice 0
    | .boolean => choice 1
    | .int => choice 2
    | .long => choice 3
    | .float => choice 4
    | .double => choice 5
    | .path => choice 6
    | .choice variants => Wire.choice 7 ++ encode variants
  decode := do
    match ← number 4 with
    | 0 => return .text
    | 1 => return .boolean
    | 2 => return .int
    | 3 => return .long
    | 4 => return .float
    | 5 => return .double
    | 6 => return .path
    | 7 => return .choice (← decode)
    | index => throw (.unknownChoice index 8)

/-- The parts of a descriptor, in the order of its binary form. -/
@[reducible]
def OptionDescriptor.parts (d : OptionDescriptor) :=
  (d.name, d.description, d.isRepeatable, d.kind)

instance : Wire OptionDescriptor :=
  .via OptionDescriptor.parts
    fun (name, description, isRepeatable, kind) => ⟨name, description, isRepeatable, kind⟩

instance : Wire Role where
  encode
    | .generator => choice 0
    | .processor => choice 1
  decode := do
    match ← number 4 with
    | 0 => return .generator
    | 1 => return .processor
    | index => throw (.unknownChoice index 2)

instance : Wire Level where
  encode
    | .debug => choice 0
    | .lifecycle => choice 1
    | .warn => choice 2
    | .error => choice 3
  decode := do
    match ← number 4 with
    | 0 => return .debug
    | 1 => return .lifecycle
    | 2 => return .warn
    | 3 => return .error
    | index => throw (.unknownChoice index 4)

/-- The parts of a log record, in the order of its binary form. -/
@[reducible]
def LogRecord.parts (r : LogRecord) := (r.text, r.level)

instance : Wire LogRecord := .via LogRecord.parts fun (text, level) => ⟨level, text⟩

/-- The parts of a description, in the order of its binary form. -/
@[reducible]
def Metadata.parts (m : Metadata) := (m.name, m.description, m.options, m.role)

instance : Wire Metadata :=
  .via Metadata.parts
    fun (name, description, options, role) => ⟨name, description, options, role⟩

/-- Options are the list of their keys with values. Of a repeated key the last one counts. -/
instance : Wire GenerationOptions :=
  .via GenerationOptions.raw fun entries => ⟨.ofList entries⟩

instance : Wire Request.Body where
  encode
    | .fetchMetadata => choice 0
    | .sendInput files options => choice 1 ++ encode (files, options)
  decode := do
    match ← number 4 with
    | 0 => return .fetchMetadata
    | 1 =>
      let (files, options) ← decode
      return .sendInput files options
    | index => throw (.unknownChoice index 2)

instance : Wire Reply.Body where
  encode
    | .metadata metadata => choice 0 ++ encode metadata
    | .log record => choice 1 ++ encode record
    | .codeGenerated => choice 2
    | .changedInput files => choice 3 ++ encode files
  decode := do
    match ← number 4 with
    | 0 => return .metadata (← decode)
    | 1 => return .log (← decode)
    | 2 => return .codeGenerated
    | 3 => return .changedInput (← decode)
    | index => throw (.unknownChoice index 4)

/-- The parts of a request, in the order of its binary form. -/
@[reducible]
def Request.parts (m : Request) := (m.id, m.body)

instance : Wire Request := .via Request.parts fun (id, body) => ⟨id, body⟩

/-- The parts of a reply, in the order of its binary form. -/
@[reducible]
def Reply.parts (m : Reply) := (m.id, m.body)

instance : Wire Reply := .via Reply.parts fun (id, body) => ⟨id, body⟩

end SchemaForge
