import SchemaForge.Text.Split
set_option autoImplicit false

/-!
# Words of the command line

A word is an option, the value of the option before it, or the name of a command. An option has a
name behind two dashes; its value follows an equals sign or is the next word.

An option whose value is a word of its own is settled only when the next option is reached, so what
is wrong with a word behind it is told first.

## Main definitions

* `SchemaForge.UsageError` — why a command line is turned down.
* `SchemaForge.CommandLine.Parameter`, `SchemaForge.CommandLine.Given` — the options, and options
  with their values.
* `SchemaForge.CommandLine.Grammar.read` — the options in words, up to a command.
-/

namespace SchemaForge

/-- Why a command line is turned down. The requests for help and for the version are among these
reasons, as nothing else is done then. -/
inductive UsageError where
  | helpRequested
  | versionRequested
  /-- There are no words at all. -/
  | noArguments
  /-- There are options, but there is no command. -/
  | noCommand
  | unknownArgument
  | unknownCommand
  /-- A value is missing or empty. -/
  | badValue
  /-- An option that takes no value is given one. -/
  | needlessValue
  /-- An option is given twice. -/
  | givenTwice
  deriving DecidableEq, Repr, Inhabited

namespace CommandLine

/-! ### Options -/

/-- The options of all commands. -/
inductive Parameter where
  | config
  | debug
  | logLevel
  | schema
  | plugin
  | output
  | sourceInput
  | contextInput
  | packageCycles
  | option
  | ignoreErrors
  deriving DecidableEq, Repr, Inhabited

/-- What the value of an option is. -/
inductive Parameter.Form where
  /-- There is none. -/
  | flag
  /-- A path, which is not empty. -/
  | path
  | text
  deriving DecidableEq, Repr, Inhabited

namespace Parameter

/-- The name of an option. -/
def name : Parameter → String
  | .config => "config"
  | .debug => "debug"
  | .logLevel => "log-level"
  | .schema => "schema"
  | .plugin => "plugin"
  | .output => "gen-output"
  | .sourceInput => "source-input"
  | .contextInput => "context-input"
  | .packageCycles => "permit-package-cycles"
  | .option => "option"
  | .ignoreErrors => "ignore-errors"

/-- What the value of an option is. -/
def form : Parameter → Form
  | .debug | .packageCycles | .ignoreErrors => .flag
  | .config | .schema | .output | .sourceInput | .contextInput => .path
  | .logLevel | .plugin | .option => .text

/-- Whether an option may be given more than once. -/
def repeats : Parameter → Bool
  | .plugin | .sourceInput | .contextInput | .option => true
  | _ => false

/-- The options that stand before the command or behind it. -/
def common : List Parameter := [.config, .debug, .logLevel]

end Parameter

/-- Options with their values, in the order in which they are given. The value of a flag is
empty. -/
abbrev Given := List (Parameter × String)

namespace Given

/-- The values of an option. -/
def values (given : Given) (parameter : Parameter) : List String :=
  given.filterMap fun (p, value) => if p = parameter then some value else none

/-- The value of an option that is given at most once. -/
def value? (given : Given) (parameter : Parameter) : Option String :=
  (given.values parameter).head?

/-- Whether an option is given. -/
def has (given : Given) (parameter : Parameter) : Bool := given.any (·.1 = parameter)

/-- One more option. -/
def record (given : Given) (parameter : Parameter) (value : String) : Except UsageError Given :=
  if !parameter.repeats && given.has parameter then .error .givenTwice
  else if parameter.form = .path && value = "" then .error .badValue
  else .ok (given ++ [(parameter, value)])

end Given

/-! ### Words -/

/-- What a word of the command line looks like. -/
inductive Word where
  /-- What follows is not an option. -/
  | separator
  /-- An option, perhaps with a value behind an equals sign. -/
  | long (name : String) (value : Option String)
  /-- Letters behind one dash. -/
  | short (letters : List Char)
  | plain
  deriving DecidableEq, Repr, Inhabited

/-- What a word looks like. -/
def Word.ofText (text : String) : Word :=
  match text.toList with
  | ['-', '-'] => .separator
  | '-' :: '-' :: name =>
    match Text.splitFirstChars '=' name with
    | none => .long (String.ofList name) none
    | some (name, value) => .long (String.ofList name) (some (String.ofList value))
  | '-' :: letter :: letters => .short (letter :: letters)
  | _ => .plain

/-- What a command, or the program before its command, understands. -/
structure Grammar where
  parameters : List Parameter
  /-- The commands that may follow. -/
  commands : List String
  /-- Whether the version can be asked for. -/
  tellsVersion : Bool
  deriving DecidableEq, Repr, Inhabited

namespace Grammar

/-- The option with a name. -/
def parameter? (grammar : Grammar) (name : String) : Option Parameter :=
  grammar.parameters.find? (·.name == name)

/-- What is asked for by the name of an option. -/
def request? (grammar : Grammar) (name : String) : Option UsageError :=
  if name = "help" then some .helpRequested
  else if name = "version" && grammar.tellsVersion then some .versionRequested
  else none

/-- What is asked for by a letter. -/
def letterRequest? (grammar : Grammar) (letter : Char) : Option UsageError :=
  if letter = 'h' then some .helpRequested
  else if letter = 'V' && grammar.tellsVersion then some .versionRequested
  else none

/-- What is wrong with a word that is no option: a command is expected there, or nothing. -/
def strayWord (grammar : Grammar) : UsageError :=
  if grammar.commands = [] then .unknownArgument else .unknownCommand

/-- What is wrong with a word behind the separator. A command must stand before it. -/
def strayBehindSeparator (grammar : Grammar) (text : String) : UsageError :=
  if grammar.commands.contains text then .unknownArgument else grammar.strayWord

end Grammar

/-! ### Reading -/

/-- What has been read: the options that are settled, and the last one if it is not, with
its value if that has been reached. -/
structure Progress where
  given : Given
  pending : Option (Parameter × Option String)
  deriving DecidableEq, Repr, Inhabited

namespace Progress

/-- Nothing. -/
def start : Progress := ⟨[], none⟩

/-- All options settled. -/
def settle (progress : Progress) : Except UsageError Given :=
  match progress.pending with
  | none => .ok progress.given
  | some (_, none) => .error .badValue
  | some (parameter, some value) => progress.given.record parameter value

/-- Whether the next word is a value unless it looks like an option. -/
def awaitsValue (progress : Progress) : Bool :=
  match progress.pending with
  | some (_, none) => true
  | _ => false

/-- One more option, with the value behind its equals sign. -/
def add (progress : Progress) (parameter : Parameter) (value : Option String) :
    Except UsageError Progress :=
  match parameter.form, value with
  | .flag, some _ => .error .needlessValue
  | .flag, none => do
    let given ← (← progress.settle).record parameter ""
    return ⟨given, none⟩
  | _, some value => do
    let given ← (← progress.settle).record parameter value
    return ⟨given, none⟩
  | _, none => do return ⟨← progress.settle, some (parameter, none)⟩

/-- What is asked for, unless an option before it is not in order. -/
def ask (progress : Progress) (request : UsageError) : Except UsageError Progress := do
  let _ ← progress.settle
  .error request

/-- One more word behind two dashes. -/
def addLong (progress : Progress) (grammar : Grammar) (name : String) (value : Option String) :
    Except UsageError Progress :=
  match grammar.parameter? name, grammar.request? name with
  | some parameter, _ => progress.add parameter value
  | none, some request => if value.isSome then .error .needlessValue else progress.ask request
  | none, none => .error .unknownArgument

/-- One more word behind one dash. No letter is an option, so the first one decides. -/
def addShort (progress : Progress) (grammar : Grammar) (letters : List Char) :
    Except UsageError Progress :=
  match letters.head?.bind grammar.letterRequest? with
  | some request => progress.ask request
  | none => .error .unknownArgument

/-- One more word that is no option. -/
def addPlain (progress : Progress) (grammar : Grammar) (text : String) :
    Except UsageError Progress :=
  match progress.pending with
  | some (parameter, none) => .ok { progress with pending := some (parameter, some text) }
  | _ => .error grammar.strayWord

end Progress

/-- Reads words up to a command, which is left with all words behind it. -/
def Grammar.read (grammar : Grammar) :
    Progress → List String → Except UsageError (Progress × List String)
  | progress, [] => .ok (progress, [])
  | progress, text :: words =>
    if !progress.awaitsValue && grammar.commands.contains text then .ok (progress, text :: words)
    else
      match Word.ofText text with
      | .separator =>
        match words with
        | [] => .ok (progress, [])
        | next :: _ => .error (grammar.strayBehindSeparator next)
      | .long name value => do grammar.read (← progress.addLong grammar name value) words
      | .short letters => do grammar.read (← progress.addShort grammar letters) words
      | .plain => do grammar.read (← progress.addPlain grammar text) words

end CommandLine

end SchemaForge
