import ChartValues.Log.Filter
import ChartValues.Log.Format

/-!
# Reports

What a run of the program leaves behind: output, messages and log events in the order in which they come
about, and an exit code. Only when a report is written out do the log settings decide which events are
shown and how.
-/

namespace ChartValues

/-- One thing that a run brings forth. -/
inductive Emission where
  /-- A line of output. -/
  | output (line : String)
  /-- A text for the user, apart from the output. -/
  | message (text : String)
  | event (e : Log.Event)
  deriving Repr

/-- A run from its start to its end. -/
structure Report where
  emissions : List Emission := []
  exitCode : Nat := 0
  deriving Repr

namespace Report

/-- A line for the user. -/
def line (text : String) : Emission := .message (text ++ "\n")

def events (es : List Log.Event) : List Emission := es.map .event

/-- A run that stops with an error. -/
def failure (text : String) (before : List Emission := []) : Report :=
  { emissions := before ++ [line ("error: " ++ text)], exitCode := 1 }

def standardOutput (r : Report) : String :=
  String.join (r.emissions.map fun (e : Emission) => match e with
    | .output line => line ++ "\n"
    | _ => "")

/-- What is written to the error stream. -/
def standardError (filter : Log.Filter) (format : Log.Format) (r : Report) : String :=
  String.join (r.emissions.map fun (e : Emission) => match e with
    | .output _ => ""
    | .message text => text
    | .event e => if filter.shows e then format.render e else "")

end Report

end ChartValues
