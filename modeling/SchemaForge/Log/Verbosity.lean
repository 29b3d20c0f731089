import SchemaForge.Text.Blank
import SchemaForge.Text.Numeral
set_option autoImplicit false

/-!
# How much is logged

## Main definitions

* `SchemaForge.Verbosity` — up to which level diagnostics are written.
* `SchemaForge.Verbosity.ofName?` — the verbosity a name or a number stands for.
-/

namespace SchemaForge

/-- Up to which level diagnostics are written. -/
inductive Verbosity where
  | error
  | warn
  | info
  | debug
  | trace
  deriving DecidableEq, Repr, Inhabited

namespace Verbosity

/-- The levels from the least verbose one on; the first one has the number 1. -/
def all : List Verbosity := [.error, .warn, .info, .debug, .trace]

/-- The name of a level. -/
def word : Verbosity → String
  | .error => "ERROR"
  | .warn => "WARN"
  | .info => "INFO"
  | .debug => "DEBUG"
  | .trace => "TRACE"

/-- The number in a text of digits, which may have a plus sign in front. -/
def number? : List Char → Option Nat
  | '+' :: digits => Text.digitsValue? digits
  | digits => Text.digitsValue? digits

/-- The level that a text without blanks around it stands for: its name in letters of any case, or
its number. -/
def ofWord? (text : String) : Option Verbosity :=
  match number? text.toList with
  | some n => if n = 0 then none else all[n - 1]?
  | none => all.find? fun level => level.word == String.ofList (text.toList.map Char.toUpper)

/-- The level that a text stands for. -/
def ofName? (text : String) : Option Verbosity := ofWord? (Text.trim text)

end Verbosity

end SchemaForge
