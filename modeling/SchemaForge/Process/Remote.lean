import SchemaForge.Process.Handshake
set_option autoImplicit false

/-!
# Plugins that run as processes

A plugin that runs as a process is called like any other one. It serves a single call: with this
call the channel to it is used up.

## Main definitions

* `SchemaForge.Line` — the channel to a plugin, until it is used up.
* `SchemaForge.Contact.request` — the one call of a plugin.
* `SchemaForge.Contact.plugin` — the plugin.
-/

namespace SchemaForge

open Wire

/-- The channel to a plugin whose peer is of type `π`, until it is used up. -/
abbrev Line (π : Type) := Option (Channel Reply π)

namespace Contact

variable {π : Type} [Peer π]

/-- Writes down what was noted in a conversation. -/
def writeDown {σ ε : Type} (notes : List Entry) : Work σ ε Unit :=
  modify fun journal => { journal with entries := journal.entries ++ notes }

/-- Notes that the process is let go. -/
def farewell (contact : Contact) {σ ε : Type} : Work σ ε Unit :=
  contact.logger.detail contact.farewellText

/-- The one call of the plugin: uses up the channel, and gives the plugin's answer. -/
def request (contact : Contact) (call : Call) : Work (Line π) PluginError Reply.Body := do
  match ← Work.world with
  | none => Work.fail (.alreadyFinished contact.metadata.name)
  | some channel =>
    Work.setWorld none
    let record := (exchange contact call).run channel
    writeDown record.notes
    match record.result with
    | none => Work.stall
    | some result =>
      contact.farewell
      Work.ofExcept result

/-- The failure for an answer that does not suit the role. -/
def unexpected (contact : Contact) (expected : String) (got : Reply.Body) : PluginError :=
  .protocol (.unexpectedReply contact.metadata.name got.kind expected)

/-- Calls a generator. Without an output directory the plugin is left alone. -/
def generate (contact : Contact) (call : Call) : Work (Line π) PluginError Unit := do
  if call.options.output?.isNone then Work.fail (.missingOption GenerationOptions.outputKey)
  match ← contact.request call with
  | .codeGenerated => return ()
  | got => Work.fail (contact.unexpected "CodeGenerated" got)

/-- Calls a processor. -/
def process (contact : Contact) (call : Call) : Work (Line π) PluginError (List SchemaFile) := do
  match ← contact.request call with
  | .changedInput files => return files
  | got => Work.fail (contact.unexpected "ChangedInput" got)

/-- The plugin, as it has described itself. -/
def plugin (contact : Contact) : Plugin (Line π) where
  name := contact.metadata.name
  description := contact.metadata.description
  options := contact.metadata.options
  task := match contact.metadata.role with
    | .generator => .generator contact.generate
    | .processor => .processor contact.process

end Contact

end SchemaForge
