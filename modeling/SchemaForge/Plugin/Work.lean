import SchemaForge.Halt
import SchemaForge.Wire.Message
set_option autoImplicit false

/-!
# Work that is logged

Work changes a world and writes records into a journal, until it has a result, fails or stalls. The
changes and the records of work that has come to a halt remain.

## Main definitions

* `SchemaForge.Logger` — for whom a record is written, and whether details are wanted.
* `SchemaForge.Journal` — a world together with the records written so far.
* `SchemaForge.Work` — what can be done with a journal.
-/

namespace SchemaForge

/-- For whom a log record is written. -/
inductive Audience where
  /-- For those who watch the orchestrator. -/
  | orchestrator
  /-- For those who watch the plugin. -/
  | plugin (name : String)
  deriving DecidableEq, Repr, Inhabited

/-- Where log records go. -/
structure Logger where
  audience : Audience
  /-- Whether diagnostic details are wanted. -/
  debug : Bool
  deriving DecidableEq, Repr, Inhabited

/-- A log record with its audience. -/
structure Entry where
  audience : Audience
  record : LogRecord
  deriving DecidableEq, Repr, Inhabited

/-- A world and the records written while it changed. -/
structure Journal (σ : Type) where
  world : σ
  entries : List Entry
  deriving DecidableEq, Repr, Inhabited

/-- Work on a world of type `σ` that has a result of type `α` or fails with an error of type
`ε`. -/
abbrev Work (σ ε α : Type) := ExceptT (Halt ε) (StateM (Journal σ)) α

namespace Work

variable {σ τ ε ε' α : Type}

/-- Fails. -/
def fail (error : ε) : Work σ ε α := throw (.failed error)

/-- Waits for ever. -/
def stall : Work σ ε α := throw .stalled

/-- The result, or the failure. -/
def ofExcept : Except ε α → Work σ ε α
  | .ok a => pure a
  | .error error => fail error

/-- The world as it is. -/
def world : Work σ ε σ := do return (← get).world

/-- Puts another world in place. -/
def setWorld (world : σ) : Work σ ε Unit := modify fun journal => { journal with world }

/-- The same work on a part of a world. -/
def within (part : σ → τ) (replace : σ → τ → σ) (work : Work τ ε α) : Work σ ε α :=
  fun journal =>
    let (result, inner) := work.run ⟨part journal.world, journal.entries⟩
    (result, ⟨replace journal.world inner.world, inner.entries⟩)

/-- The same work with another account of a failure. -/
def mapError (f : ε → ε') (work : Work σ ε α) : Work σ ε' α := fun journal =>
  let (result, journal) := work.run journal
  (result.mapError (Halt.mapError f), journal)

end Work

namespace Logger

variable {σ ε : Type}

/-- Writes a record. -/
def log (logger : Logger) (record : LogRecord) : Work σ ε Unit :=
  modify fun journal =>
    { journal with entries := journal.entries ++ [⟨logger.audience, record⟩] }

/-- Writes a detail, if details are wanted. -/
def detail (logger : Logger) (text : String) : Work σ ε Unit :=
  if logger.debug then logger.log ⟨.debug, text⟩ else pure ()

/-- Writes of progress. -/
def progress (logger : Logger) (text : String) : Work σ ε Unit := logger.log ⟨.lifecycle, text⟩

/-- Writes a warning. -/
def warning (logger : Logger) (text : String) : Work σ ε Unit := logger.log ⟨.warn, text⟩

/-- Writes of an error. -/
def error (logger : Logger) (text : String) : Work σ ε Unit := logger.log ⟨.error, text⟩

end Logger

end SchemaForge
