import ChartValues.CommandLine.Options
import ChartValues.Document.Basic
import ChartValues.Log.Format

/-!
# Invocations

The command line as a command with its settings: which of the six commands is meant, on what, and the
settings that all of them share.
-/

namespace ChartValues.CommandLine

/-- The settings that all commands share. -/
structure Settings where
  colored : Bool := true
  config : Option String := none
  level : Log.Level := .warn
  format : Log.Format := .compact
  deriving DecidableEq, Repr

/-- What the program is asked to do. -/
inductive Command where
  | complete (file : String) (position : Position) (json : Bool)
  | blocks (file : String)
  | path (file : String) (position : Position)
  | flatten (chartRef : String) (json : Bool)
  | resolve (file : String) (position : Position) (label : String) (json : Bool)
  | test (path : String) (categories : List String)
  | listCategories (path : String)
  deriving DecidableEq, Repr

structure Invocation where
  settings : Settings
  command : Command
  deriving DecidableEq, Repr

/-! ## Values -/

/-- The number that a text writes, of at most 64 bits; a plus sign may stand before it. -/
def natural? (s : String) : Option Nat :=
  let digits := match s.toList with
    | '+' :: cs => cs
    | cs => cs
  let n := digits.foldl (fun n c => n * 10 + (c.toNat - '0'.toNat)) 0
  if !digits.isEmpty && digits.all Char.isDigit && n < Nat.pow 2 64 then some n else none

def level? : String → Option Log.Level
  | "trace" => some .trace
  | "debug" => some .debug
  | "info" => some .info
  | "warn" => some .warn
  | "error" => some .error
  | _ => none

def format? : String → Option Log.Format
  | "compact" => some .compact
  | "pretty" => some .pretty
  | "json" => some .json
  | _ => none

/-! ## Options -/

def sharedOptions : List OptionSpec :=
  [{ name := "no-color" },
    { name := "config", accepts := some fun s => !s.isEmpty },
    { name := "log-level", accepts := some fun s => (level? s).isSome },
    { name := "log-format", accepts := some fun s => (format? s).isSome }]

def cursorOptions : List OptionSpec :=
  [{ name := "line", short := some 'l', accepts := some fun s => (natural? s).isSome },
    { name := "column", short := some 'c', accepts := some fun s => (natural? s).isSome }]

def jsonOption : OptionSpec := { name := "json" }

def optionsOf : String → Option (List OptionSpec)
  | "complete" => some (cursorOptions ++ [jsonOption])
  | "blocks" => some []
  | "path" => some cursorOptions
  | "flatten" => some [jsonOption]
  | "resolve" =>
    some (cursorOptions ++ [{ name := "label", accepts := some fun _ => true }, jsonOption])
  | "test" =>
    some [{ name := "category", accepts := some fun _ => true, repeatable := true },
      { name := "list-categories" }]
  | _ => none

def positionOf (w : Words) : Option Position := do
  return ⟨← (w.value? "line").bind natural?, ← (w.value? "column").bind natural?⟩

/-- The command of a name with its words; `none` if something is missing. -/
def commandOf (name : String) (w : Words) : Option Command := do
  let subject ← w.arguments.head?
  match name with
  | "complete" => return .complete subject (← positionOf w) (w.has "json")
  | "blocks" => return .blocks subject
  | "path" => return .path subject (← positionOf w)
  | "flatten" => return .flatten subject (w.has "json")
  | "resolve" => return .resolve subject (← positionOf w) (← w.value? "label") (w.has "json")
  | "test" =>
    return if w.has "list-categories" then .listCategories subject
      else .test subject (w.values "category")
  | _ => none

/-- The settings in the words before and behind a command's name: what stands behind it counts. -/
def settingsOf (before behind : Words) : Settings :=
  let value? (name : String) : Option String := (behind.value? name).or (before.value? name)
  { colored := !(before.has "no-color" || behind.has "no-color")
    config := value? "config"
    level := ((value? "log-level").bind level?).getD .warn
    format := ((value? "log-format").bind format?).getD .compact }

def Invocation.ofArgs (args : List String) : Except Stop Invocation := do
  let (before, name, rest) ← readLeading sharedOptions {} none args
  if name = "help" then .error .help
  else
    match optionsOf name with
    | none => .error .usage
    | some specs =>
      let behind ← readWords (specs ++ sharedOptions) 1 {} none false rest
      match commandOf name behind with
      | none => .error .usage
      | some command => return ⟨settingsOf before behind, command⟩

end ChartValues.CommandLine
