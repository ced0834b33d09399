import ChartValues.Json
import ChartValues.Log.Event

/-!
# Log lines

An event as text: in one line, as structured output, or spread over lines for reading.
-/

namespace ChartValues.Log

inductive Format where
  | compact
  | pretty
  | json
  deriving DecidableEq, Repr

namespace Format

def fieldText : Value → String
  | .text s => s
  | .quoted s => Text.quoteVisible s
  | .number n => toString n

def fieldJson : Value → Json
  | .text s => .string s
  | .quoted s => .string s
  | .number n => .number n

/-- A level's name, filled up to five columns. -/
def levelText (l : Level) : String :=
  String.ofList (List.replicate (5 - l.name.length) ' ') ++ l.name

/-- An event as text, with the end of its line. -/
def render (f : Format) (e : Event) : String :=
  match f with
  | compact =>
    levelText e.level ++ " " ++ e.target ++ ": " ++ e.message ++
      String.join (e.fields.map fun (name, v) => " " ++ name ++ "=" ++ fieldText v) ++ "\n"
  | pretty =>
    "  " ++ levelText e.level ++ " " ++ e.target ++ ": " ++ e.message ++
      String.join (e.fields.map fun (name, v) => ", " ++ name ++ ": " ++ fieldText v) ++ "\n\n"
  | json =>
    Json.compact (.object [("level", .string e.level.name),
      ("fields", .object (("message", .string e.message) ::
        e.fields.map fun (name, v) => (name, fieldJson v))),
      ("target", .string e.target)]) ++ "\n"

end Format

end ChartValues.Log
