set_option autoImplicit false

/-!
# How processes end

## Main definitions

* `SchemaForge.ExitStatus` — the end of a process, by itself or by a signal.
* `SchemaForge.ExitStatus.text` — the status as shown to a user.
-/

namespace SchemaForge

/-- The end of a process. -/
inductive ExitStatus where
  /-- It ended by itself, with a code. -/
  | code (code : Nat)
  /-- A signal ended it. -/
  | signal (number : Nat)
  deriving DecidableEq, Repr, Inhabited

/-- The names of the signals from the first one on. -/
def signalNames : List String :=
  ["SIGHUP", "SIGINT", "SIGQUIT", "SIGILL", "SIGTRAP", "SIGABRT", "SIGBUS", "SIGFPE", "SIGKILL",
    "SIGUSR1", "SIGSEGV", "SIGUSR2", "SIGPIPE", "SIGALRM", "SIGTERM", "SIGSTKFLT", "SIGCHLD",
    "SIGCONT", "SIGSTOP", "SIGTSTP", "SIGTTIN", "SIGTTOU", "SIGURG", "SIGXCPU", "SIGXFSZ",
    "SIGVTALRM", "SIGPROF", "SIGWINCH", "SIGIO", "SIGPWR", "SIGSYS"]

/-- The name of a signal, if it has one. -/
def signalName? (number : Nat) : Option String :=
  if number = 0 then none else signalNames[number - 1]?

/-- The status as shown to a user. -/
def ExitStatus.text : ExitStatus → String
  | .code n => "exit status: " ++ toString n
  | .signal number => "signal: " ++ toString number ++
    match signalName? number with
    | some name => " (" ++ name ++ ")"
    | none => ""

end SchemaForge
