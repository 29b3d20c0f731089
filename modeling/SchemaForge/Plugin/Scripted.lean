import SchemaForge.Plugin.Session
set_option autoImplicit false

/-!
# A plugin that plays a part

The plugin tries out how an orchestrator deals with plugins of all kinds: one that keeps to the
rules of the conversation and logs what it is given, and some that break these rules.

## Main definitions

* `SchemaForge.Scripted.plugin` — the generator that only logs.
* `SchemaForge.Scripted.Part` — the parts that can be played.
* `SchemaForge.Scripted.misbehave` — the conversation of a part that breaks the rules.
-/

namespace SchemaForge.Scripted

open Wire

/-- How the plugin describes itself. -/
def description : String := "Scripted test plugin"

/-- Logs what it is given, and an error if this is its part. -/
def generate {σ : Type} (logsError : Bool) (call : Call) : Work σ PluginError Unit := do
  call.logger.detail ("options: " ++ call.options.debugText)
  call.logger.progress ("received " ++ toString call.files.length ++ " file(s)")
  if logsError then call.logger.error "something broke"

/-- The generator that only logs. -/
def plugin {σ : Type} (name : String) (logsError : Bool) : Plugin σ where
  name := name
  description := description
  options := []
  task := .generator (generate logsError)

/-- The parts that can be played. -/
inductive Part where
  /-- It keeps to the rules. -/
  | wellBehaved
  /-- It says that code is written when it is asked to describe itself. -/
  | wrongHandshake
  /-- It gives back a schema though it is a generator. -/
  | wrongTerminal
  /-- It leaves without reading anything. -/
  | exit
  /-- It keeps to the rules and logs an error. -/
  | logError
  /-- It never answers its input. -/
  | hang
  /-- It writes a record before it describes itself, then keeps to the rules. -/
  | logBeforeMeta
  deriving DecidableEq, Repr, Inhabited

/-- The word for a part. -/
def Part.word : Part → String
  | .wellBehaved => "well-behaved"
  | .wrongHandshake => "wrong-handshake"
  | .wrongTerminal => "wrong-terminal"
  | .exit => "exit"
  | .logError => "log-error"
  | .hang => "hang"
  | .logBeforeMeta => "log-before-meta"

/-- All parts. -/
def Part.all : List Part :=
  [.wellBehaved, .wrongHandshake, .wrongTerminal, .exit, .logError, .hang, .logBeforeMeta]

/-- The part with a word. -/
def Part.ofWord? (word : String) : Option Part := Part.all.find? (·.word == word)

/-- Whether the part keeps to the rules in everything. -/
def Part.followsProtocol : Part → Bool
  | .wellBehaved | .logError => true
  | _ => false

/-- The code with which the part that leaves does so. -/
def exitCode : Nat := 2

/-- The first record of the part that writes one early. -/
def startupRecord : LogRecord := ⟨.lifecycle, "starting up"⟩

/-- What the part says of its input. -/
def Part.verdict (part : Part) : Request.Body → Reply.Body
  | .fetchMetadata => if part = .logBeforeMeta then .codeGenerated else .changedInput []
  | .sendInput files _ =>
    if part = .logBeforeMeta then .codeGenerated else .changedInput files

/-- Says one thing, and leaves if this cannot be said. -/
def say (reply : Reply) (next : PluginTalk (Except TransportError Unit)) :
    PluginTalk (Except TransportError Unit) :=
  .send reply fun
    | .error error => .done (.error error)
    | .ok () => next

/-- Takes a request, and leaves if there is none. -/
def onRequest (next : Request → PluginTalk (Except TransportError Unit)) :
    PluginTalk (Except TransportError Unit) :=
  .receive fun
    | .error error => .done (.error error)
    | .ok none => .done (.ok ())
    | .ok (some request) => next request

/-- The conversation of a part that breaks the rules. It takes whatever it is asked for in turn. -/
def misbehave (name : String) (part : Part) : PluginTalk (Except TransportError Unit) :=
  onRequest fun request =>
    if part = .wrongHandshake then say ⟨request.id, .codeGenerated⟩ (.done (.ok ()))
    else
      let introduction : Reply := ⟨request.id, .metadata ⟨name, description, [], .generator⟩⟩
      let rest := say introduction <| onRequest fun input =>
        if part = .hang then .stall
        else say ⟨input.id, part.verdict input.body⟩ (.done (.ok ()))
      if part = .logBeforeMeta then say (.ofRecord startupRecord) rest else rest

end SchemaForge.Scripted
