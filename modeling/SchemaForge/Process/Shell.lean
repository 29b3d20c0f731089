import SchemaForge.Process.Child
import SchemaForge.Text.Blank
import SchemaForge.Text.Numeral
import SchemaForge.Text.Split
import SchemaForge.Text.Utf8
set_option autoImplicit false

/-!
# Scripts for child processes

A small shell that is enough to play the part of a plugin: it reads input, writes bytes, branches
on its environment and ends. What a script does depends on its environment alone, so it is turned
into a plan before it runs.

## Main definitions

* `SchemaForge.Shell.tokenize` — the commands of a script, word by word.
* `SchemaForge.Shell.plan?` — what a script does.
* `SchemaForge.Shell.system` — the system whose programs are the commands of the shell.
-/

namespace SchemaForge.Shell

open Wire Text

/-- A word of a command. -/
structure Word where
  text : String
  /-- Whether no part of it was quoted. -/
  bare : Bool
  deriving DecidableEq, Repr, Inhabited

/-- The value of a variable, empty if it is not set. -/
def valueOf (environment : List (String × String)) (name : String) : String :=
  (environment.lookup name).getD ""

/-- Whether the character may stand in the name of a variable. -/
def isNameChar (c : Char) : Bool := c.isAlphanum || c == '_'

/-! ### Words -/

/-- How the reading of a script stands. -/
inductive Mode where
  /-- Between words. -/
  | between
  /-- In a word without quotes around it. -/
  | plain
  /-- In single quotes. -/
  | single
  /-- In double quotes. -/
  | double
  deriving DecidableEq, Repr, Inhabited

/-- A script that has been read up to some character. -/
structure Scan where
  mode : Mode
  /-- The finished commands, the last one first. -/
  commands : List (List Word)
  /-- The finished words of the command under way, the last one first. -/
  words : List Word
  /-- The characters of the word under way, the last one first. -/
  chars : List Char
  /-- Whether a part of this word was quoted. -/
  quoted : Bool
  /-- The name of the variable under way, its last character first, if there is one. -/
  naming : Option (List Char)

namespace Scan

/-- The scan of nothing. -/
def start : Scan := ⟨.between, [], [], [], false, none⟩

/-- Ends the variable under way. -/
def endVariable (environment : List (String × String)) (scan : Scan) : Scan :=
  match scan.naming with
  | none => scan
  | some [] => { scan with chars := '$' :: scan.chars, naming := none }
  | some name =>
    let value := valueOf environment (String.ofList name.reverse)
    { scan with chars := value.toList.reverse ++ scan.chars, naming := none }

/-- Ends the word under way. -/
def endWord (scan : Scan) : Scan :=
  if scan.mode = .between then scan
  else
    { scan with
      mode := .between
      words := ⟨String.ofList scan.chars.reverse, !scan.quoted⟩ :: scan.words
      chars := []
      quoted := false }

/-- Ends the command under way, if there is one. -/
def endCommand (scan : Scan) : Scan :=
  let scan := scan.endWord
  if scan.words = [] then scan
  else { scan with commands := scan.words.reverse :: scan.commands, words := [] }

/-- Takes a character into the word under way. -/
def push (scan : Scan) (c : Char) : Scan :=
  { scan with mode := if scan.mode = .between then .plain else scan.mode, chars := c :: scan.chars }

/-- Takes a character outside of quotes. -/
def takePlain (scan : Scan) : Char → Scan
  | '\'' => { scan with mode := .single, quoted := true }
  | '"' => { scan with mode := .double, quoted := true }
  | ';' | '\n' => scan.endCommand
  | ' ' | '\t' => scan.endWord
  | '$' => { scan with mode := .plain, naming := some [] }
  | c => scan.push c

/-- Takes a character when no variable is under way. -/
def takeChar (scan : Scan) (c : Char) : Scan :=
  match scan.mode with
  | .between | .plain => scan.takePlain c
  | .single => if c = '\'' then { scan with mode := .plain } else scan.push c
  | .double =>
    if c = '"' then { scan with mode := .plain }
    else if c = '$' then { scan with naming := some [] }
    else scan.push c

/-- Takes the next character of a script. The variable `$$` stays as it is written. -/
def take (environment : List (String × String)) (scan : Scan) (c : Char) : Scan :=
  match scan.naming with
  | none => scan.takeChar c
  | some name =>
    if isNameChar c then { scan with naming := some (c :: name) }
    else if c = '$' && name = [] then
      { scan with chars := '$' :: '$' :: scan.chars, naming := none }
    else (scan.endVariable environment).takeChar c

end Scan

/-- The commands of a script, with the values of the variables in place. -/
def tokenize (environment : List (String × String)) (script : String) : List (List Word) :=
  let last := script.toList.foldl (Scan.take environment) Scan.start
  ((last.endVariable environment).endCommand).commands.reverse

/-! ### Commands -/

/-- The byte for up to three octal digits, and the rest. -/
def octal (cs : List Char) : UInt8 × List Char :=
  let digits := (cs.take 3).takeWhile fun c => '0' ≤ c && c ≤ '7'
  (UInt8.ofNat (digits.foldl (fun n c => 8 * n + digitValue c) 0), cs.drop digits.length)

/-- The bytes a format stands for: backslashes begin octal numbers and the usual escapes. -/
def formatBytes : Nat → List Char → Bytes
  | 0, _ | _, [] => []
  | fuel + 1, '\\' :: 'n' :: cs => 10 :: formatBytes fuel cs
  | fuel + 1, '\\' :: 't' :: cs => 9 :: formatBytes fuel cs
  | fuel + 1, '\\' :: 'r' :: cs => 13 :: formatBytes fuel cs
  | fuel + 1, '\\' :: '\\' :: cs => 92 :: formatBytes fuel cs
  | fuel + 1, '%' :: '%' :: cs => 37 :: formatBytes fuel cs
  | fuel + 1, '\\' :: c :: cs =>
    if '0' ≤ c && c ≤ '7' then
      let (byte, rest) := octal (c :: cs)
      byte :: formatBytes fuel rest
    else toBytes (String.ofList ['\\', c]) ++ formatBytes fuel cs
  | fuel + 1, c :: cs => toBytes (String.ofList [c]) ++ formatBytes fuel cs

/-- The bytes that `printf` writes for a format. -/
def printed (format : String) : Bytes := formatBytes format.length format.toList

/-- The number a word stands for. -/
def number? (text : String) : Option Nat := digitsValue? text.toList

/-- The signal for the option of `kill`. -/
def signal? (option : String) : Option Nat :=
  match option.toList with
  | '-' :: rest =>
    match digitsValue? rest with
    | some n => some n
    | none => (signalNames.idxOf? ("SIG" ++ String.ofList rest)).map (· + 1)
  | _ => none

/-- Whether the word sends the output of its command away. -/
def Word.isRedirection (word : Word) : Bool :=
  word.bare && (word.text == ">/dev/null" || word.text == "1>/dev/null" || word.text == "1>&-" ||
    word.text == ">&-")

/-- What a command does, given its words without redirections and whether there were any. -/
def action? (muted : Bool) : List String → Option (List ChildAction)
  | ["head", "-c", count] => do return [.read (← number? count) !muted]
  | ["cat"] => some [.drain !muted]
  | ["printf", format] => some (if muted then [] else [.write (printed format)])
  | ["exec"] => some (if muted then [.closeOutput] else [])
  | ["exit"] => some [.exit (.code 0)]
  | ["exit", code] => do return [.exit (.code ((← number? code) % 256))]
  | ["kill", "$$"] => some [.exit (.signal 15)]
  | ["kill", option, "$$"] => do return [.exit (.signal (← signal? option))]
  | "echo" :: words =>
    some (if muted then [] else [.write (toBytes (" ".intercalate words ++ "\n"))])
  | ["true"] | ["false"] | [":"] => some []
  | _ => none

/-- What a command does. -/
def commandPlan? (command : List Word) : Option (List ChildAction) :=
  action? (command.any Word.isRedirection)
    ((command.filter fun word => !word.isRedirection).map Word.text)

/-- Whether a condition holds, which compares two texts. -/
def condition? (command : List Word) : Option Bool :=
  match command.map Word.text with
  | ["[", left, "=", right, "]"] => some (left == right)
  | ["[", left, "!=", right, "]"] => some (left != right)
  | ["true"] => some true
  | ["false"] => some false
  | _ => none

/-- The words that stand in front of a command. -/
def keywords : List String := ["if", "then", "else", "fi"]

/-- The commands with keywords as commands of their own. -/
def separate (command : List Word) : List (List Word) :=
  match command with
  | word :: rest =>
    if word.bare && keywords.contains word.text then
      if rest = [] then [[word]] else [[word], rest]
    else [command]
  | [] => []

/-- What commands do. Of each branch under way it is known whether it is taken; a branch inside of
one that is not taken is not taken either. -/
def planOf? : List Bool → List (List Word) → Option (List ChildAction)
  | [], [] => some []
  | _ :: _, [] => none
  | branches, [word] :: commands =>
    if word.text = "if" && word.bare then
      match commands with
      | condition :: commands => do
        let holds ← condition? condition
        planOf? ((holds && branches.all id) :: branches) commands
      | [] => none
    else if word.text = "then" && word.bare then planOf? branches commands
    else if word.text = "else" && word.bare then
      match branches with
      | taken :: outer => planOf? ((!taken && outer.all id) :: outer) commands
      | [] => none
    else if word.text = "fi" && word.bare then planOf? branches.tail commands
    else do
      let first ← commandPlan? [word]
      let rest ← planOf? branches commands
      return if branches.all id then first ++ rest else rest
  | branches, command :: commands => do
    let first ← commandPlan? command
    let rest ← planOf? branches commands
    return if branches.all id then first ++ rest else rest

/-- What a script does, if the shell understands it. -/
def plan? (environment : List (String × String)) (script : String) :
    Option (List ChildAction) :=
  planOf? [] ((tokenize environment script).flatMap separate)

/-- The system with a shell, and with the commands of the shell as programs. A script that the
shell does not understand ends it with the code 2. -/
def system : System Child where
  spawn number environment
    | ["sh", "-c", script] =>
      some (.start number ((plan? environment script).getD [.exit (.code 2)]))
    | program :: arguments =>
      if program = "false" then some (.start number [.exit (.code 1)])
      else if ["head", "cat", "printf", "echo", "true"].contains program then
        (action? false (program :: arguments)).map (.start number)
      else none
    | [] => none

end SchemaForge.Shell
