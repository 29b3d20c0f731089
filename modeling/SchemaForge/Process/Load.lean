import SchemaForge.Generation.Run
import SchemaForge.Process.Remote
set_option autoImplicit false

/-!
# Starting plugins

Every command is started, and then every plugin is asked to describe itself. The plugins work side
by side, so none has to wait for another one: a failure of one is found even where another one
never answers.

## Main definitions

* `SchemaForge.LoadError` — why a plugin cannot be started.
* `SchemaForge.load` — a plugin started and asked to describe itself.
* `SchemaForge.loadAll` — the plugins for several commands.
-/

namespace SchemaForge

open Wire

/-- Why a plugin cannot be started. -/
inductive LoadError where
  /-- The command has no program. -/
  | emptyCommand
  /-- The program cannot be started. -/
  | spawn (command : String)
  /-- The process ended before the plugin had described itself. -/
  | exited (command : String) (status : ExitStatus) (fault : HandshakeFault)
  /-- The plugin did not describe itself. -/
  | handshake (command : String) (fault : HandshakeFault)
  deriving DecidableEq, Repr, Inhabited

/-- The text of a failure. -/
def LoadError.message : LoadError → String
  | .emptyCommand => "Empty plugin command"
  | .spawn command => "Failed to start plugin `" ++ command ++ "`: " ++ FileError.notFound.message
  | .exited command status fault =>
    "Plugin `" ++ command ++ "` exited with " ++ status.text ++ " during the handshake: " ++
      fault.reason
  | .handshake command fault =>
    "Plugin `" ++ command ++ "` failed the handshake: " ++ fault.reason

/-- The command that could not be started, unless there was none. -/
def LoadError.command? : LoadError → Option String
  | .emptyCommand => none
  | .spawn command | .exited command _ _ | .handshake command _ => some command

/-- Why the plugins of a run cannot be started. -/
inductive StartError where
  /-- One of them cannot. -/
  | load (error : LoadError)
  /-- Together they take too long. -/
  | timeout (timeout : Timeout)
  deriving DecidableEq, Repr, Inhabited

/-- The text of a failure. -/
def StartError.message : StartError → String
  | .load error => error.message
  | .timeout exceeded => exceeded.message

/-- The variable that tells plugins that details are wanted. -/
def debugVariable : String := "RRGEN_PLUGIN_DEBUG"

/-- The environment of plugins. -/
def pluginEnvironment (debug : Bool) : List (String × String) :=
  if debug then [(debugVariable, "1")] else []

/-- A command as shown to a user. -/
def commandLine (command : List String) : String := " ".intercalate command

variable {π σ : Type}

/-- A process that has been started, and has not been spoken to. -/
structure Started (π : Type) where
  command : String
  peer : π

/-- The channel to a process that has not said anything. -/
def Started.channel (started : Started π) : Channel Reply π :=
  ⟨.ofSource ⟨[], .open⟩, started.peer⟩

/-- The detail noted when a process has been started. -/
def startedText (command : String) (number : Nat) : String :=
  "Process for `" ++ command ++ "` started with PID Some(" ++ toString number ++ ")."

/-- Starts the process for a command. -/
def start [Process π] (system : System π) (logger : Logger) (number : Nat)
    (command : List String) : Work σ LoadError (Started π) := do
  if command = [] then Work.fail .emptyCommand
  match system.spawn number (pluginEnvironment logger.debug) command with
  | none => Work.fail (.spawn (commandLine command))
  | some peer =>
    logger.detail (startedText (commandLine command) (Process.number peer))
    return ⟨commandLine command, peer⟩

/-- The failure for a fault of the handshake: it is told if the process has ended. -/
def LoadError.ofFault (command : String) (status? : Option ExitStatus) (fault : HandshakeFault) :
    LoadError :=
  match status? with
  | some status => .exited command status fault
  | none => .handshake command fault

/-- Asks a started plugin to describe itself. -/
def greet [Process π] (logger : Logger) (started : Started π) :
    Work σ LoadError (Contact × Channel Reply π) := do
  let record := (handshake logger).run started.channel
  Contact.writeDown record.notes
  match record.result with
  | none => Work.stall
  | some (.ok metadata) =>
    return (⟨metadata, started.command, Process.number started.peer, logger⟩, record.channel)
  | some (.error fault) =>
    Work.fail (.ofFault started.command (Process.status? record.channel.peer) fault)

/-- Starts a plugin and asks it to describe itself. -/
def load [Process π] (system : System π) (logger : Logger) (number : Nat)
    (command : List String) : Work σ LoadError (Contact × Channel Reply π) := do
  greet logger (← start system logger number command)

/-! ### Several plugins -/

/-- Starts the processes for commands, with numbers from `number` on. -/
def startAll [Process π] (system : System π) (logger : Logger) :
    Nat → List (List String) → Work σ LoadError (List (Started π))
  | _, [] => return []
  | number, command :: commands => do
    let first ← start system logger number command
    return first :: (← startAll system logger (number + 1) commands)

/-- Both results. Work that stalls does not keep other work from going on, so the failure of either
one is found. -/
def Work.both {ε α β : Type} (first : Work σ ε α) (second : Work σ ε β) :
    Work σ ε (α × β) := fun journal =>
  match first.run journal with
  | (.error (.failed error), journal) => (.error (.failed error), journal)
  | (.error .stalled, journal) =>
    match second.run journal with
    | (.error (.failed error), journal) => (.error (.failed error), journal)
    | (_, journal) => (.error .stalled, journal)
  | (.ok a, journal) =>
    match second.run journal with
    | (.error halt, journal) => (.error halt, journal)
    | (.ok b, journal) => (.ok (a, b), journal)

/-- Asks started plugins to describe themselves. -/
def greetAll [Process π] (logger : Logger) :
    List (Started π) → Work σ LoadError (List (Contact × Channel Reply π))
  | [] => return []
  | started :: rest => do
    let (first, others) ← (greet logger started).both (greetAll logger rest)
    return first :: others

/-- The plugins for several commands, in the order of the commands. -/
def loadAll [Process π] (system : System π) (logger : Logger) (commands : List (List String)) :
    Work σ LoadError (List (Contact × Channel Reply π)) := do
  greetAll logger (← startAll system logger 1 commands)

/-- The plugins for several commands, within a time limit. -/
def loadWithin [Process π] (system : System π) (logger : Logger) (limit : Option Duration)
    (commands : List (List String)) : Work σ StartError (List (Contact × Channel Reply π)) :=
  fun journal =>
    let (result, journal) := (loadAll system logger commands).run journal
    match result, limit with
    | .ok loaded, _ => (.ok loaded, journal)
    | .error (.failed error), _ => (.error (.failed (.load error)), journal)
    | .error .stalled, some limit =>
      (.error (.failed (.timeout ⟨.handshake, none, limit⟩)), journal)
    | .error .stalled, none => (.error .stalled, journal)

/-! ### The plugins in one world -/

/-- The lines to all the plugins of a run. -/
abbrev Lines (π : Type) := List (Line π)

/-- The line with the given index. -/
def Lines.line (lines : Lines π) (index : Nat) : Line π := lines[index]?.join

/-- The plugins that were started, each with a line of its own. -/
def loadedPlugins [Peer π] (loaded : List (Contact × Channel Reply π)) :
    List (Plugin (Lines π)) :=
  loaded.zipIdx.map fun ((contact, _), index) =>
    contact.plugin.within (fun lines => Lines.line lines index) fun lines line =>
      lines.set index line

/-- The lines of the plugins that were started. -/
def loadedLines (loaded : List (Contact × Channel Reply π)) : Lines π :=
  loaded.map fun (_, channel) => some channel

end SchemaForge
