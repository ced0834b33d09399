import ChartValues.Log.Event
import ChartValues.Tree.OfYaml

/-!
# Fetching a chart's values

A provider answers a request for a chart's default values with a tree or an error. Providers may have a
state of their own, so a fetch also gives the provider's next state. `parseValues` is the way from YAML
text to a tree that all of them share.
-/

namespace ChartValues

inductive FetchErrorKind where
  /-- The source of the values could not be read or run. -/
  | executionFailed
  /-- What the source gave is not a mapping of values. -/
  | parseFailed
  | cancelled
  | timedOut
  deriving DecidableEq, Repr

def FetchErrorKind.name : FetchErrorKind → String
  | executionFailed => "execution failed"
  | parseFailed => "parse failed"
  | cancelled => "cancelled"
  | timedOut => "timed out"

structure FetchError where
  kind : FetchErrorKind
  chartRef : String
  message : String
  deriving DecidableEq, Repr

namespace FetchError

def ofCancelled (chartRef : String) : FetchError :=
  ⟨.cancelled, chartRef, "request was cancelled"⟩

def render (e : FetchError) : String :=
  "fetching values for `" ++ e.chartRef ++ "`: " ++ e.kind.name ++ ": " ++ e.message

end FetchError

def malformedYaml : String := "malformed YAML"

/-- The tree of a YAML text. An empty text means a chart without defaults; any other root that is no
mapping is an error. -/
def parseValues (chartRef text : String) : Except FetchError Tree :=
  match Yaml.parse text with
  | none => .error ⟨.parseFailed, chartRef, malformedYaml⟩
  | some value =>
    match Tree.ofYaml value with
    | .object fields => .ok (.object fields)
    | .scalar _ .null => .ok .empty
    | .scalar _ kind =>
      .error ⟨.parseFailed, chartRef, "expected a mapping at the root, found " ++ kind.name⟩

/-- A source of values. A fetch is told the chart and whether the request has been cancelled. -/
structure Provider (σ : Type) where
  fetch : (chartRef : String) → (cancelled : Bool) → σ → Except FetchError Tree × σ
  events : (chartRef : String) → List Log.Event := fun _ => []

/-- A provider that looks charts up in a list of YAML texts. -/
def Provider.ofCharts (charts : List (String × String)) : Provider Unit where
  fetch chartRef cancelled _ :=
    if cancelled then (.error (.ofCancelled chartRef), ())
    else
      match charts.lookup chartRef with
      | none => (.error ⟨.executionFailed, chartRef, "chart not found"⟩, ())
      | some text => (parseValues chartRef text, ())

end ChartValues
