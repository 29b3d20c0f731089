set_option autoImplicit false

/-!
# How work comes to a halt

Work that waits for something else may wait for ever. This is not a failure: nobody is told, and
only a time limit ends it.

## Main definitions

* `SchemaForge.Halt` — work fails, or waits for ever.
-/

namespace SchemaForge

/-- Why work does not come to its result. -/
inductive Halt (ε : Type) where
  /-- It fails. -/
  | failed (error : ε)
  /-- It waits for something that never comes. -/
  | stalled
  deriving DecidableEq, Repr, Inhabited

/-- The same halt with another account of a failure. -/
def Halt.mapError {ε ε' : Type} (f : ε → ε') : Halt ε → Halt ε'
  | .failed error => .failed (f error)
  | .stalled => .stalled

end SchemaForge
