import ChartValues.Completion
import ChartValues.Json

/-!
# Answers as structured output

Entries, items, notices and responses as JSON values.
-/

namespace ChartValues

def Span.toJson (s : Span) : Json := .object [("start", .number s.start), ("end", .number s.stop)]

def Notice.toJson (n : Notice) : Json :=
  .object [("level", .string n.severity.name), ("message", .string n.message),
    ("span", (n.span.map Span.toJson).getD .null), ("notes", .ofStrings n.notes)]

def EditRange.toJson (r : EditRange) : Json :=
  .object [("line", .number r.line), ("start", .number r.start), ("end", .number r.stop)]

def Origin.toJson (o : Origin) : Json :=
  .object [("chart_ref", .string o.chartRef), ("path", .ofStrings o.path)]

def Item.toJson (i : Item) : Json :=
  .object [("label", .string i.label), ("insert_text", .string i.insertText),
    ("kind", .string i.kind.name), ("detail", .ofOption i.detail),
    ("edit_range", i.editRange.toJson), ("documentation_markdown", .ofOption i.documentation),
    ("sort_key", .string i.sortKey), ("data", i.origin.toJson)]

def Response.toJson (r : Response) : Json :=
  .object [("items", .array (r.items.map Item.toJson)),
    ("notices", .array (r.notices.map Notice.toJson)), ("cancelled", .bool r.cancelled)]

def Entry.toJson (e : Entry) : Json :=
  .object [("path", .ofStrings e.path), ("is_object", .bool e.isObject),
    ("scalar_text", .ofOption e.scalarText), ("kind", .ofOption (e.kind.map Kind.name)),
    ("sort_key", .object [("rank", .number e.sortKey.rank), ("sequence", .number e.sortKey.sequence)])]

def Source.ShowValues.toJson (a : Source.ShowValues) : Json :=
  .object [("action", .string "show_values"), ("chart_ref", .string a.chartRef),
    ("path", .ofStrings a.path), ("yaml", .string a.yaml)]

/-- A field put in its place by name. -/
def Json.insertField (key : String) (v : Json) : List (String × Json) → List (String × Json)
  | [] => [(key, v)]
  | (k, w) :: rest => if key < k then (key, v) :: (k, w) :: rest else (k, w) :: insertField key v rest

mutual

/-- The same value with the fields of all objects in order of their names. -/
def Json.sorted : Json → Json
  | .array elements => .array (sortedElements elements)
  | .object fields => .object (sortedFields fields)
  | v => v

def Json.sortedElements : List Json → List Json
  | [] => []
  | v :: rest => Json.sorted v :: Json.sortedElements rest

def Json.sortedFields : List (String × Json) → List (String × Json)
  | [] => []
  | (k, v) :: rest => Json.insertField k (Json.sorted v) (Json.sortedFields rest)

end

end ChartValues
