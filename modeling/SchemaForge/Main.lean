import SchemaForge.CommandLine.Outcome
import SchemaForge.Config.Document
set_option autoImplicit false

/-!
# The program

The program reads the documents that its arguments name, and leaves what the command leaves behind.
-/

namespace SchemaForge.Program

/-- The content of a document, if there is one. -/
def read (path : String) : IO (Option ByteArray) := do
  try return some (← IO.FS.readBinFile path)
  catch _ => return none

/-- Writes a document, and makes the directories above it. -/
def write (path : String) (content : ByteArray) : IO Unit := do
  match Text.splitLast '/' path with
  | none => pure ()
  | some (directory, _) => IO.FS.createDirAll directory
  IO.FS.writeBinFile path content

/-- Writes a line. -/
def printLine : ConsoleStream × String → IO Unit
  | (.output, line) => IO.println line
  | (.diagnostics, line) => IO.eprintln line

/-- Leaves what a command leaves behind. -/
def leave (outcome : Outcome) : IO UInt32 := do
  for (path, content) in outcome.documents do
    write path content
  for line in outcome.lines do
    printLine line
  return outcome.code

/-- Carries out a command. -/
def carryOut (arguments : Arguments) (config : Config) : IO UInt32 := do
  match arguments.command with
  | .describe plugins =>
    match pluginCommands plugins config with
    | .error error => leave (.failure error.message)
    | .ok commands => leave (.describe commands)
  | .generate generate =>
    match GenerateSettings.resolve generate config with
    | .error error => leave (.failure error.message)
    | .ok settings =>
      leave (.generate settings (arguments.showsDetails config) (← read settings.schema))

/-- The configuration that the arguments name. -/
def config (arguments : Arguments) : IO (Except ConfigError Config) := do
  match arguments.config with
  | none => return Config.loadOrDefault none
  | some path =>
    match (← read path).bind String.fromUTF8? with
    | none => return .error .malformed
    | some text => return Config.loadOrDefault (some text)

/-- Carries out the command in the words of a command line. -/
def start (words : List String) : IO UInt32 := do
  match Arguments.ofWords words with
  | .error error => leave (.usage error)
  | .ok arguments =>
    match ← config arguments with
    | .error error => leave (.failure error.message)
    | .ok config => carryOut arguments config

end SchemaForge.Program

/-- The program. -/
def main (words : List String) : IO UInt32 := SchemaForge.Program.start words
