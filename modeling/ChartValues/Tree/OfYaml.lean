import ChartValues.Tree.Basic
import ChartValues.Yaml.Value

/-!
# Values trees from YAML

A mapping becomes an object; its keys become texts, and where two keys have one text the later value
takes the earlier one's place. A sequence becomes one scalar with its JSON text. Tags are dropped.
-/

namespace ChartValues.Tree

open ChartValues.Yaml (Value)

/-- The text of a mapping's key: that of a scalar, else its JSON text if it has one. -/
def keyText : Value → String
  | .string s => s
  | .number n => n.text
  | .boolean b => if b then "true" else "false"
  | .null => "null"
  | other => other.json.getD ""

mutual

def ofYaml : Value → Tree
  | .mapping pairs => object (ofPairs (fieldsOfYaml pairs))
  | .string s => string s
  | .number n => number n.text
  | .boolean b => boolean b
  | .null => null
  | .sequence items => scalar ((Value.sequence items).json.getD "[]") .sequence
  | .tagged _ value => ofYaml value

def fieldsOfYaml : List (Value × Value) → List (String × Tree)
  | [] => []
  | (key, value) :: rest => (keyText key, ofYaml value) :: fieldsOfYaml rest

end

end ChartValues.Tree
