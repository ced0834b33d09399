import ChartValues.File.Tree

/-!
# Processes

What running a command comes to: the bytes it writes, how it ends and how long it takes. A `Runner`
answers for the commands of a system.
-/

namespace ChartValues

inductive Exit where
  | code (n : Nat)
  | signal (n : Nat)
  deriving DecidableEq, Repr

namespace Exit

/-- The names of the signals, from 1 on. -/
def signalNames : List String :=
  ["SIGHUP", "SIGINT", "SIGQUIT", "SIGILL", "SIGTRAP", "SIGABRT", "SIGBUS", "SIGFPE", "SIGKILL",
    "SIGUSR1", "SIGSEGV", "SIGUSR2", "SIGPIPE", "SIGALRM", "SIGTERM"]

def message : Exit → String
  | code n => s!"exit status: {n}"
  | signal n =>
    match signalNames[n - 1]? with
    | some name => s!"signal: {n} ({name})"
    | none => s!"signal: {n}"

end Exit

/-- A process from its start to its end. -/
structure Process where
  output : List UInt8 := []
  errors : List UInt8 := []
  exit : Exit := .code 0
  /-- How long it runs, in milliseconds. -/
  duration : Nat := 0
  deriving Repr

/-- Runs a command with its arguments, or tells why it cannot be started. -/
abbrev Runner := (command : String) → (args : List String) → Except FileError Process

end ChartValues
