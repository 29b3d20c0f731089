import SchemaForge.Plugin.Basic
import SchemaForge.Process.Child
import SchemaForge.Wire.Talk
set_option autoImplicit false

/-!
# The orchestrator in conversation with a plugin

First the plugin is asked to describe itself, later it is handed its input. Each time the records of
its log are written down up to the first other message, which has to be the answer.

## Main definitions

* `SchemaForge.OrchestratorTalk` — the part of the orchestrator in a conversation.
* `SchemaForge.handshake` — asking a plugin to describe itself.
* `SchemaForge.exchange` — handing a plugin its input.
-/

namespace SchemaForge

open Wire

/-- The part of the orchestrator in a conversation: it hears what plugins say and notes down log
records. -/
abbrev OrchestratorTalk (α : Type) := Talk Reply Request Entry α

/-- The entry for a message that is a log record. -/
def Reply.entry? (audience : Audience) (reply : Reply) : Option Entry :=
  match reply.body with
  | .log record => some ⟨audience, record⟩
  | _ => none

/-- Notes a detail, if details are wanted. -/
def Logger.note {α : Type} (logger : Logger) (text : String) (next : OrchestratorTalk α) :
    OrchestratorTalk α :=
  if logger.debug then .note ⟨logger.audience, .debug, text⟩ next else next

/-! ### The description -/

/-- Why a plugin does not get to describe itself. -/
inductive HandshakeFault where
  /-- Messages cannot be exchanged. -/
  | transport (error : TransportError)
  /-- The plugin closes its output. -/
  | closed
  /-- The plugin gives another answer. -/
  | unexpected (got : String)
  deriving DecidableEq, Repr, Inhabited

/-- The text of a fault. -/
def HandshakeFault.reason : HandshakeFault → String
  | .transport error => error.message
  | .closed => "output closed before metadata was sent"
  | .unexpected got => "expected SendMetaInformation, got " ++ got

/-- Asks a plugin to describe itself. -/
def handshake (logger : Logger) : OrchestratorTalk (Except HandshakeFault Metadata) :=
  .send ⟨requestId 0, .fetchMetadata⟩ fun
    | .error error => .done (.error (.transport error))
    | .ok () => .listen (Reply.entry? logger.audience) fun
      | .error error => .done (.error (.transport error))
      | .ok none => .done (.error .closed)
      | .ok (some ⟨_, .metadata metadata⟩) => .done (.ok metadata)
      | .ok (some reply) => .done (.error (.unexpected reply.body.kind))

/-! ### The input -/

/-- What is known of a plugin that has described itself. -/
structure Contact where
  metadata : Metadata
  /-- The command the plugin was started with. -/
  command : String
  /-- The number of its process. -/
  number : Nat
  /-- Where details of the exchange are noted. -/
  logger : Logger
  deriving DecidableEq, Repr

namespace Contact

/-- The detail noted before the input is sent. -/
def sendingText (contact : Contact) (call : Call) : String :=
  "Sending " ++ toString call.files.length ++ " files to `" ++ contact.metadata.name ++ "`."

/-- The detail noted when the plugin has answered. -/
def answeredText (contact : Contact) (answer : Reply.Body) : String :=
  "`" ++ contact.metadata.name ++ "` answered with " ++ answer.kind ++ "."

/-- The detail noted when the process is let go. -/
def farewellText (contact : Contact) : String :=
  "Finishing `" ++ contact.metadata.name ++ "` (PID Some(" ++ toString contact.number ++ "))."

/-- The reason to fail where the plugin closes its output without an answer. -/
def exitedText (contact : Contact) : String :=
  "`" ++ contact.command ++ "` exited before reporting a result"

end Contact

/-- Hands a plugin its input, and gives its answer. -/
def exchange (contact : Contact) (call : Call) :
    OrchestratorTalk (Except PluginError Reply.Body) :=
  contact.logger.note (contact.sendingText call) <|
    .send ⟨requestId 1, .sendInput call.files call.options⟩ fun
      | .error error => .done (.error (.transport error))
      | .ok () => .listen (Reply.entry? call.logger.audience) fun
        | .error error => .done (.error (.transport error))
        | .ok none => .done (.error (.transport (.closed contact.exitedText)))
        | .ok (some reply) =>
          contact.logger.note (contact.answeredText reply.body) <| .done (.ok reply.body)

end SchemaForge
