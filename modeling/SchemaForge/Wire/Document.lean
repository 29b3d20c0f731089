import SchemaForge.Schema.Document.Reader
import SchemaForge.Schema.Document.Writer
import SchemaForge.Wire.Message
set_option autoImplicit false

/-!
# Messages as JSON documents

Messages travel in their binary form; as documents they can be read by people. A record is an
object, and a choice is its name, or an object with the name as its only key.

## Main definitions

* `SchemaForge.Request.toJson`, `SchemaForge.Reply.toJson` — the documents of messages.
* `SchemaForge.Reader.request`, `SchemaForge.Reader.reply` — the messages documents hold.
-/

namespace SchemaForge

/-! ### Writing -/

/-- The document of a choice that holds something. -/
def Json.choice (name : String) (value : Json) : Json := .record [(name, value)]

/-- The document of options. -/
def GenerationOptions.toJson (options : GenerationOptions) : Json :=
  .record (options.raw.map fun (key, values) => (key, .list .text values))

/-- The document of a kind of values. -/
def OptionKind.toJson : OptionKind → Json
  | .text => .text "Text"
  | .boolean => .text "Boolean"
  | .int => .text "Int"
  | .long => .text "Long"
  | .float => .text "Float"
  | .double => .text "Double"
  | .path => .text "Path"
  | .choice variants => .choice "Choice" (.list .text variants)

/-- The document of an option descriptor. -/
def OptionDescriptor.toJson (descriptor : OptionDescriptor) : Json :=
  .record [
    ("name", .text descriptor.name),
    ("description", .text descriptor.description),
    ("is_repeatable", .bool descriptor.isRepeatable),
    ("kind", descriptor.kind.toJson)]

/-- The name of a level in a document. -/
def Level.name : Level → String
  | .debug => "Debug"
  | .lifecycle => "Lifecycle"
  | .warn => "Warn"
  | .error => "Error"

/-- The document of a plugin's description of itself. -/
def Metadata.toJson (metadata : Metadata) : Json :=
  .record [
    ("name", .text metadata.name),
    ("description", .text metadata.description),
    ("options", .list OptionDescriptor.toJson metadata.options),
    ("role", .text metadata.role.word)]

/-- The document of what is asked for. -/
def Request.Body.toJson : Request.Body → Json
  | .fetchMetadata => .text "FetchMetadata"
  | .sendInput files options =>
    .choice "SendInput" (.record [("files", schemaToJson files), ("options", options.toJson)])

/-- The document of what is said. -/
def Reply.Body.toJson : Reply.Body → Json
  | .metadata m => .choice "SendMetaInformation" m.toJson
  | .log record =>
    .choice "LogMessage"
      (.record [("message", .text record.text), ("level", .text record.level.name)])
  | .codeGenerated => .text "CodeGenerated"
  | .changedInput files => .choice "ChangedInput" (.record [("files", schemaToJson files)])

/-- The document of a message of an orchestrator. -/
def Request.toJson (request : Request) : Json :=
  .record [("id", .text request.id), ("signal", request.body.toJson)]

/-- The document of a message of a plugin. -/
def Reply.toJson (reply : Reply) : Json :=
  .record [("id", .text reply.id), ("signal", reply.body.toJson)]

/-! ### Reading -/

namespace Reader

/-- Options: an object with a list of texts for each key. -/
def generationOptions : Reader GenerationOptions
  | room + 1, .object members => do
    let entries ← members.mapM fun (key, value) => do
      return (← key, ← list text room value)
    return ⟨.ofList entries⟩
  | _, _ => none

/-- A choice without anything in it, by its name. -/
def word {α : Type} (select : String → Option α) : Reader α
  | _, .string (some name) => select name
  | _, _ => none

/-- A kind of values. -/
def optionKind : Reader OptionKind
  | _, .string (some "Text") => some .text
  | _, .string (some "Boolean") => some .boolean
  | _, .string (some "Int") => some .int
  | _, .string (some "Long") => some .long
  | _, .string (some "Float") => some .float
  | _, .string (some "Double") => some .double
  | _, .string (some "Path") => some .path
  | room, json => variant (fun
      | "Choice" => some fun room json => (list text room json).map .choice
      | _ => none) room json

/-- An option descriptor. -/
def optionDescriptor : Reader OptionDescriptor := fun room json => do
  let r ← Record.read ["name", "description", "is_repeatable", "kind"] room json
  return {
    name := ← r.get "name" text
    description := ← r.get "description" text
    isRepeatable := ← r.get "is_repeatable" bool
    kind := ← r.get "kind" optionKind }

/-- A level. -/
def level : Reader Level := word fun name =>
  [Level.debug, .lifecycle, .warn, .error].find? fun level => level.name == name

/-- A role. -/
def role : Reader Role := word fun name =>
  [Role.generator, .processor].find? fun role => role.word == name

/-- A plugin's description of itself. -/
def metadata : Reader Metadata := fun room json => do
  let r ← Record.read ["name", "description", "options", "role"] room json
  return {
    name := ← r.get "name" text
    description := ← r.get "description" text
    options := ← r.get "options" (list optionDescriptor)
    role := ← r.get "role" role }

/-- What is asked for. -/
def requestBody : Reader Request.Body
  | _, .string (some "FetchMetadata") => some .fetchMetadata
  | room, json => variant (fun
      | "SendInput" => some fun room json => do
        let r ← Record.read ["files", "options"] room json
        return .sendInput (← r.get "files" (list schemaFile)) (← r.get "options" generationOptions)
      | _ => none) room json

/-- What is said. -/
def replyBody : Reader Reply.Body
  | _, .string (some "CodeGenerated") => some .codeGenerated
  | room, json => variant (fun
      | "SendMetaInformation" => some fun room json => (metadata room json).map .metadata
      | "LogMessage" => some fun room json => do
        let r ← Record.read ["message", "level"] room json
        return .log ⟨← r.get "level" level, ← r.get "message" text⟩
      | "ChangedInput" => some fun room json => do
        let r ← Record.read ["files"] room json
        return .changedInput (← r.get "files" (list schemaFile))
      | _ => none) room json

/-- A message of an orchestrator. -/
def request : Reader Request := fun room json => do
  let r ← Record.read ["id", "signal"] room json
  return ⟨← r.get "id" text, ← r.get "signal" requestBody⟩

/-- A message of a plugin. -/
def reply : Reader Reply := fun room json => do
  let r ← Record.read ["id", "signal"] room json
  return ⟨← r.get "id" text, ← r.get "signal" replyBody⟩

end Reader

end SchemaForge
