import ChartValues.Text.Quoted

/-!
# Log events

What the program reports about its own work: a level, the part of the program that speaks, a message
and named fields. Events are data; whether and how they are shown is decided by `Log.Filter` and
`Log.Format`.
-/

namespace ChartValues.Log

inductive Level where
  | error
  | warn
  | info
  | debug
  | trace
  deriving DecidableEq, Repr

namespace Level

/-- The level's number: the more verbose, the greater. -/
def verbosity : Level → Nat
  | error => 1
  | warn => 2
  | info => 3
  | debug => 4
  | trace => 5

def name : Level → String
  | error => "ERROR"
  | warn => "WARN"
  | info => "INFO"
  | debug => "DEBUG"
  | trace => "TRACE"

end Level

inductive Value where
  /-- Shown as it stands. -/
  | text (s : String)
  /-- Shown between quotes in a log line. -/
  | quoted (s : String)
  | number (n : Nat)
  deriving DecidableEq, Repr

structure Event where
  level : Level
  /-- The part of the program that speaks, as a path of names. -/
  target : String
  message : String
  fields : List (String × Value)
  deriving DecidableEq, Repr

def optionText : Option String → String
  | some s => "Some(" ++ Text.quoteVisible s ++ ")"
  | none => "None"

def listText (items : List String) : String :=
  "[" ++ ", ".intercalate (items.map Text.quoteVisible) ++ "]"

end ChartValues.Log
