/-!
# YAML tokens

What a YAML text is cut into before its structure is read.
-/

namespace ChartValues.Yaml

inductive Token where
  | version (major minor : Nat)
  /-- A directive that lets `handle` stand for the text `expansion` in tags. -/
  | tagDirective (handle expansion : String)
  | documentStart
  | documentEnd
  | blockSequenceStart
  | blockMappingStart
  | blockEnd
  | flowSequenceStart
  | flowSequenceEnd
  | flowMappingStart
  | flowMappingEnd
  | blockEntry
  | flowEntry
  | key
  | value
  | alias (name : String)
  | anchor (name : String)
  | tag (handle suffix : String)
  /-- A scalar with its content; `plain` if it stands without quotes and block marks. -/
  | scalar (content : String) (plain : Bool)
  | streamEnd
  deriving DecidableEq, Repr

end ChartValues.Yaml
