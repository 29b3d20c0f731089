import SchemaForge.CommandLine.Word
set_option autoImplicit false

/-!
# Arguments of the command line

A command line names a command, with options behind it. The common options may stand before the
command or behind it, and there they count more.

## Main definitions

* `SchemaForge.Arguments` — what a command line says.
* `SchemaForge.Arguments.ofWords` — the arguments in the words of a command line.
-/

namespace SchemaForge

open CommandLine

/-- The arguments of the command that generates code. -/
structure GenerateArguments where
  schema : Option String := none
  plugins : List String := []
  output : Option String := none
  sourceInputs : List String := []
  contextInputs : List String := []
  permitsPackageCycles : Bool := false
  options : List String := []
  ignoreErrors : Bool := false
  deriving DecidableEq, Repr, Inhabited

/-- A command with its arguments. -/
inductive Command where
  | generate (arguments : GenerateArguments)
  /-- Tells what options the plugins have. -/
  | describe (plugins : List String)
  deriving DecidableEq, Repr, Inhabited

/-- What a command line says. -/
structure Arguments where
  /-- The document with the configuration. -/
  config : Option String
  debug : Bool
  logLevel : Option String
  command : Command
  deriving DecidableEq, Repr, Inhabited

/-- The names of the commands. -/
inductive CommandName where
  | generate
  | describe
  deriving DecidableEq, Repr, Inhabited

namespace CommandName

/-- The word for a command. -/
def word : CommandName → String
  | .generate => "generate"
  | .describe => "describe"

/-- The command that a word stands for. -/
def ofWord? (word : String) : Option CommandName :=
  if word = "generate" then some .generate
  else if word = "describe" then some .describe
  else none

/-- The options of a command. -/
def parameters : CommandName → List Parameter
  | .generate => [.schema, .plugin, .output, .sourceInput, .contextInput, .packageCycles, .option,
      .ignoreErrors]
  | .describe => [.plugin]

/-- What may stand behind a command. -/
def grammar (name : CommandName) : Grammar := ⟨name.parameters ++ Parameter.common, [], false⟩

/-- The command with its options. -/
def command (given : Given) : CommandName → Command
  | .generate => .generate {
      schema := given.value? .schema
      plugins := given.values .plugin
      output := given.value? .output
      sourceInputs := given.values .sourceInput
      contextInputs := given.values .contextInput
      permitsPackageCycles := given.has .packageCycles
      options := given.values .option
      ignoreErrors := given.has .ignoreErrors }
  | .describe => .describe (given.values .plugin)

end CommandName

namespace Arguments

/-- The word that asks for help about the words behind it. -/
def helpWord : String := "help"

/-- What may stand before the command. -/
def grammar : Grammar := ⟨Parameter.common, ["generate", "describe", helpWord], true⟩

/-- What is said to words behind the request for help: they name at most one command. -/
def help (words : List String) : UsageError :=
  match words with
  | [] => .helpRequested
  | [word] => if grammar.commands.contains word then .helpRequested else .unknownCommand
  | _ => .unknownCommand

/-- The arguments given before the command and behind it. -/
def merge (before behind : Given) (name : CommandName) : Arguments where
  config := behind.value? .config <|> before.value? .config
  debug := behind.has .debug || before.has .debug
  logLevel := behind.value? .logLevel <|> before.value? .logLevel
  command := name.command behind

/-- The arguments with a command, given what stands before it and the words behind it. -/
def withCommand (progress : Progress) (name : CommandName) (words : List String) :
    Except UsageError Arguments := do
  let (behind, _) ← name.grammar.read .start words
  let behind ← behind.settle
  return merge (← progress.settle) behind name

/-- The arguments in the words of a command line behind the name of the program. -/
def ofWords (words : List String) : Except UsageError Arguments := do
  let (progress, rest) ← grammar.read .start words
  match rest with
  | [] => if (← progress.settle) = [] then .error .noArguments else .error .noCommand
  | word :: words =>
    match CommandName.ofWord? word with
    | none => .error (help words)
    | some name => withCommand progress name words

end Arguments

end SchemaForge
