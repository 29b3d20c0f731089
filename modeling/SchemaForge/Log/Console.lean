import SchemaForge.Text.Blank
import SchemaForge.Wire.Message
set_option autoImplicit false

/-!
# Log records on a console

## Main definitions

* `SchemaForge.Console` — a console that shows where its records come from.
* `SchemaForge.Console.render` — the line for a record, and where it goes.
-/

namespace SchemaForge

/-- Where a line on a console goes. -/
inductive ConsoleStream where
  /-- The output of the program. -/
  | output
  /-- Its diagnostic output. -/
  | diagnostics
  deriving DecidableEq, Repr, Inhabited

/-- A console that shows records with a header in front. -/
structure Console where
  header : String
  /-- Whether details are shown. -/
  debug : Bool
  deriving DecidableEq, Repr, Inhabited

namespace Console

/-- What stands in front of a record: the header, unless it is blank. -/
def lead (console : Console) : String :=
  if Text.isBlankText console.header then "" else console.header ++ ": "

/-- The line for a record and where it goes. There is none for a detail that is not shown. -/
def render (console : Console) (record : LogRecord) : Option (ConsoleStream × String) :=
  let line := console.lead ++ record.text
  match record.level with
  | .debug => if console.debug then some (.output, "[DEBUG] " ++ line) else none
  | .lifecycle => some (.output, line)
  | .warn => some (.output, "[WARN] " ++ line)
  | .error => some (.diagnostics, "[ERROR] " ++ line)

end Console

end SchemaForge
