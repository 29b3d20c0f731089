import SchemaForge.Process.Status
import SchemaForge.Wire.Channel
set_option autoImplicit false

/-!
# Child processes

A child process is known by what it is still going to do. It goes on while it does not need input
that has not come. It never gets to run before the first bytes are written to it.

## Main definitions

* `SchemaForge.Child` — a child process.
* `SchemaForge.Child.advance` — what it does with the input it has.
* `SchemaForge.Process` — the peers that are processes, and may end.
* `SchemaForge.System` — what starts processes.
-/

namespace SchemaForge

open Wire

/-- One action of a child process. -/
inductive ChildAction where
  /-- It reads so many bytes of its input, and writes them again if it echoes. -/
  | read (count : Nat) (echo : Bool)
  /-- It reads its input to the end, and writes it again if it echoes. -/
  | drain (echo : Bool)
  /-- It writes bytes. -/
  | write (bytes : Bytes)
  /-- It closes its output; what it writes later goes nowhere. -/
  | closeOutput
  /-- It ends. -/
  | exit (status : ExitStatus)
  deriving DecidableEq, Repr, Inhabited

/-- A child process. -/
structure Child where
  /-- The number the system gave it. -/
  number : Nat
  /-- What it is going to do; behind the last action it ends with the code 0. -/
  plan : List ChildAction
  /-- The input it has not read. -/
  unread : Bytes
  /-- Whether it has closed its output. -/
  muted : Bool
  /-- How it has ended, if it has. -/
  status : Option ExitStatus
  deriving DecidableEq, Repr, Inhabited

namespace Child

/-- A child that has not run yet. -/
def start (number : Nat) (plan : List ChildAction) : Child := ⟨number, plan, [], false, none⟩

/-- What the child does with the plan and the input it has: the bytes it writes, and the child
afterwards. -/
def follow (child : Child) : List ChildAction → Bytes → Bool → Bytes × Child
  | [], unread, muted => ([], { child with plan := [], unread, muted, status := some (.code 0) })
  | .exit status :: _, unread, muted =>
    ([], { child with plan := [], unread, muted, status := some status })
  | .closeOutput :: plan, unread, _ => child.follow plan unread true
  | .write bytes :: plan, unread, muted =>
    let (more, last) := child.follow plan unread muted
    (if muted then more else bytes ++ more, last)
  | .drain echo :: plan, unread, muted =>
    (if echo && !muted then unread else [],
      { child with plan := .drain echo :: plan, unread := [], muted })
  | .read count echo :: plan, unread, muted =>
    let heard := unread.take count
    let echoed := if echo && !muted then heard else []
    if count ≤ unread.length then
      let (more, last) := child.follow plan (unread.drop count) muted
      (echoed ++ more, last)
    else
      (echoed,
        { child with plan := .read (count - heard.length) echo :: plan, unread := [], muted })

/-- Runs the child as far as its input goes. -/
def advance (child : Child) : Bytes × Child :=
  child.follow child.plan child.unread child.muted

/-- Whether nothing more will come out of the child. -/
def isSilent (child : Child) : Bool := child.muted || child.status.isSome

/-- The failure of writing to a process that has ended. -/
def brokenPipe : StreamFailure := ⟨"Broken pipe (os error 32)"⟩

/-- The source of the child's output with the bytes behind the others. -/
def extend (child : Child) (source : Source) (bytes : Bytes) : Source :=
  ⟨source.pieces ++ [bytes], if child.isSilent then .closed else .open⟩

/-- A child takes bytes until it has ended, and runs on with them. -/
instance : Peer Child where
  take bytes := fun (source, child) =>
    if child.status.isSome then (.error brokenPipe, source, child)
    else
      let (output, child) := { child with unread := child.unread ++ bytes }.advance
      (.ok (), child.extend source output, child)

end Child

/-- The peers that are processes: how such a peer has ended, if it has. -/
class Process (π : Type) extends Peer π where
  status? : π → Option ExitStatus
  number : π → Nat

instance : Process Child where
  status? := Child.status
  number := Child.number

/-- What starts processes: the process for a command, whose first word is the program, in an
environment. There may be no such program. -/
structure System (π : Type) where
  spawn : (number : Nat) → (environment : List (String × String)) → (command : List String) →
    Option π

end SchemaForge
