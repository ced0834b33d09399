import ChartValues.Document.Basic
import ChartValues.Fetch.Basic

/-!
# Notices

Messages to the user from a request that still completed. A failed fetch gives one: an error if the
values could not be parsed, else a warning.
-/

namespace ChartValues

inductive Severity where
  | warning
  | error
  deriving DecidableEq, Repr

def Severity.name : Severity → String
  | warning => "warning"
  | error => "error"

structure Notice where
  severity : Severity
  message : String
  /-- The bytes of the annotation's line that the notice is about. -/
  span : Option Span := none
  notes : List String := []
  deriving DecidableEq, Repr

namespace Notice

def isWarning (n : Notice) : Bool := n.severity = .warning

def ofFetchError (e : FetchError) (span : Option Span) : Notice :=
  if e.kind = .parseFailed then
    ⟨.error, "values of chart `" ++ e.chartRef ++ "` could not be parsed", span, [e.message]⟩
  else
    ⟨.warning, "values of chart `" ++ e.chartRef ++ "` are unavailable (" ++ e.kind.name ++ ")",
      span, [e.message]⟩

def spanLabel : String := "chart annotation"

end Notice

end ChartValues
