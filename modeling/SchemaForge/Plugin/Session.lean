import SchemaForge.Plugin.Basic
import SchemaForge.Wire.Talk
set_option autoImplicit false

/-!
# A plugin in conversation with an orchestrator

The plugin describes itself when asked, takes its input, passes on the records of its log, and says
in the end what has become of the input. An orchestrator that only wants the description may leave
after it.

## Main definitions

* `SchemaForge.LogRecord.isSent` — whether a record is passed on.
* `SchemaForge.Plugin.session` — the plugin's part of the conversation.
-/

namespace SchemaForge

open Wire

/-- Whether a plugin passes the record on: details only when they are wanted. -/
def LogRecord.isSent (debug : Bool) (record : LogRecord) : Bool :=
  debug || record.level != .debug

/-- The messages for the records that are passed on. -/
def logReplies (debug : Bool) (records : List LogRecord) : List Reply :=
  (records.filter (LogRecord.isSent debug)).map .ofRecord

/-- What a plugin says at the end of a call that gave back this schema, or none. -/
def Reply.Body.ofResult : Option (List SchemaFile) → Reply.Body
  | none => .codeGenerated
  | some files => .changedInput files

/-- The part of a plugin in a conversation: it hears requests and makes no notes. -/
abbrev PluginTalk (α : Type) := Talk Request Reply Empty α

namespace Plugin

variable {σ : Type}

/-- The logger whose records are passed on to the orchestrator. -/
def sessionLogger (plugin : Plugin σ) (debug : Bool) : Logger := ⟨.plugin plugin.name, debug⟩

/-- Works on the input of the request `id`, and reports. -/
def answer (plugin : Plugin σ) (debug : Bool) (world : σ) (id : String)
    (files : List SchemaFile) (options : GenerationOptions) :
    PluginTalk (Except PluginError Unit × σ) :=
  let (result, journal) :=
    (plugin.run ⟨options, files, plugin.sessionLogger debug⟩).run ⟨world, []⟩
  .sendAll (logReplies debug (journal.entries.map Entry.record)) <|
    match result with
    | .error .stalled => .stall
    | .error (.failed error) =>
      .sendAll (logReplies debug [⟨.error, error.message⟩]) (.done (.error error, journal.world))
    | .ok files? => .send ⟨id, .ofResult files?⟩ fun
      | .error error => .done (.error (.transport error), journal.world)
      | .ok () => .done (.ok (), journal.world)

/-- The plugin's part of the conversation, and the world it leaves. -/
def session (plugin : Plugin σ) (debug : Bool) (world : σ) :
    PluginTalk (Except PluginError Unit × σ) :=
  .receive fun
    | .error error => .done (.error (.transport error), world)
    | .ok none => .done (.ok (), world)
    | .ok (some ⟨_, .sendInput _ _⟩) =>
      .done (.error (.protocol (.unexpectedRequest "FetchMetadata" "SendInput")), world)
    | .ok (some ⟨id, .fetchMetadata⟩) => .send ⟨id, .metadata plugin.metadata⟩ fun
      | .error error => .done (.error (.transport error), world)
      | .ok () => .receive fun
        | .error error => .done (.error (.transport error), world)
        | .ok none => .done (.ok (), world)
        | .ok (some ⟨_, .fetchMetadata⟩) =>
          .done (.error (.protocol (.unexpectedRequest "SendInput" "FetchMetadata")), world)
        | .ok (some ⟨id, .sendInput files options⟩) => plugin.answer debug world id files options

end Plugin

end SchemaForge
