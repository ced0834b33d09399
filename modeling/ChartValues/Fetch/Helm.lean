import ChartValues.Command.Process
import ChartValues.Fetch.Basic
import ChartValues.Text.Blank

/-!
# Values from a command

The values of a chart as a command prints them, `helm show values CHART` unless told otherwise. While the
command runs it is looked at in intervals: a cancelled request or a timeout ends it, and of what is seen
at the same look a cancellation counts before a timeout and a timeout before the command's end.
-/

namespace ChartValues

/-- A command that prints the values of the chart named by its last argument. -/
structure ValuesCommand where
  command : String := "helm"
  args : List String := ["show", "values"]
  /-- The milliseconds after which the command is given up. -/
  timeout : Option Nat := none
  deriving DecidableEq, Repr

namespace ValuesCommand

/-- The milliseconds between two looks at a running command. -/
def interval : Nat := 10

/-- The first look at or after a moment. -/
def lookAfter (ms : Nat) : Nat := (ms + interval - 1) / interval

/-- What ends the waiting for a command. -/
inductive Ending where
  | cancelled
  | timedOut (limit : Nat)
  | finished
  deriving DecidableEq, Repr

/-- Whether something at moment `a` is seen no later than something at moment `b`; what never happens is
never seen. -/
def seenBefore (a : Option Nat) (b : Nat) : Bool :=
  match a with
  | some a => lookAfter a ≤ b
  | none => false

/-- What ends the waiting for a process: even the shortest one is not over at the first look. -/
def ending (timeout cancelAt : Option Nat) (duration : Nat) : Ending :=
  -- Both limits count looks, so that what is seen at one look can be told apart by its kind only.
  let finish := lookAfter (max 1 duration)
  let limit := match timeout with
    | some t => min (lookAfter t) finish
    | none => finish
  if seenBefore cancelAt limit then .cancelled
  else
    match timeout with
    | some t => if lookAfter t ≤ finish then .timedOut t else .finished
    | none => .finished

/-- What a finished process printed, if it succeeded. -/
def result (c : ValuesCommand) (chartRef : String) (p : Process) : Except FetchError String :=
  if p.exit = .code 0 then
    match Text.Utf8.decode p.output with
    | .ok text => .ok text
    | .error fault =>
      .error ⟨.parseFailed, chartRef, "output is not valid UTF-8: " ++ fault.message⟩
  else
    let detail := Text.trimmed (Text.Utf8.decodeLossy p.errors)
    let message := "`" ++ c.command ++ "` exited with " ++ p.exit.message
    .error ⟨.executionFailed, chartRef, if detail.isEmpty then message else message ++ ": " ++ detail⟩

/-- Start the command for a chart; a zero byte in a word of it cannot be passed on. -/
def start (c : ValuesCommand) (run : Runner) (chartRef : String) : Except FileError Process :=
  let args := c.args ++ [chartRef]
  if (c.command :: args).any (·.toList.contains (Char.ofNat 0)) then .error .nulArgument
  else run c.command args

/-- The values of a chart; the request is cancelled `cancelAt` milliseconds after its start. -/
def fetch (c : ValuesCommand) (run : Runner) (chartRef : String) (cancelAt : Option Nat) :
    Except FetchError Tree :=
  match c.start run chartRef with
  | .error e =>
    .error ⟨.executionFailed, chartRef, "cannot run `" ++ c.command ++ "`: " ++ e.message⟩
  | .ok process =>
    match ending c.timeout cancelAt process.duration with
    | .cancelled => .error (.ofCancelled chartRef)
    | .timedOut limit =>
      .error ⟨.timedOut, chartRef, "no result after " ++ toString limit ++ " ms"⟩
    | .finished =>
      match c.result chartRef process with
      | .ok text => parseValues chartRef text
      | .error e => .error e

def events (c : ValuesCommand) (chartRef : String) : List Log.Event :=
  [⟨.debug, "completion::provider::helm", "running values command",
    [("command", .text c.command), ("args", .text (Log.listText c.args)),
      ("chart_ref", .quoted chartRef)]⟩]

def provider (c : ValuesCommand) (run : Runner) : Provider Unit where
  fetch chartRef cancelled _ := (c.fetch run chartRef (if cancelled then some 0 else none), ())
  events := c.events

end ValuesCommand

end ChartValues
