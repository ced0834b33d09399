import ChartValues.Config

/-!
# Cases

A case is a document with a cursor, the charts it may use, and what is expected of the completion there.
It is read from a TOML file; running it gives a verdict.
-/

namespace ChartValues.Suite

/-- A notice that is expected: its severity, and a part of its message. -/
structure ExpectedNotice where
  severity : Severity
  contains : String
  deriving DecidableEq, Repr

/-- One scenario. Expectations that are left out are not checked. -/
structure Case where
  description : Option String := none
  name : String := "values.yaml"
  document : String
  position : Position
  charts : List (String × String) := []
  labels : Option (List String) := none
  insertions : Option (List String) := none
  notices : Option (List ExpectedNotice) := none
  deriving DecidableEq, Repr

namespace Case

/-! ## Reading -/

def noticeOf (v : Toml.Value) : Option ExpectedNotice := do
  let fields ← v.asRecord ["level", "contains"]
  let level ← Toml.required (·.asChoice ["warning", "error"]) fields "level"
  return ⟨if level = "warning" then .warning else .error,
    ← Toml.required (·.asString) fields "contains"⟩

def ofValue (v : Toml.Value) : Option Case := do
  let fields ← v.asRecord ["description", "name", "document", "line", "column", "charts",
    "expect_labels", "expect_insert", "expect_notices"]
  let strings := fun (v : Toml.Value) => v.asList Toml.Value.asString
  return {
    description := ← Toml.optional (·.asString) fields "description"
    name := ← Toml.withDefault (·.asString) "values.yaml" fields "name"
    document := ← Toml.required (·.asString) fields "document"
    position := ⟨← Toml.required (·.asNatural) fields "line",
      ← Toml.required (·.asNatural) fields "column"⟩
    charts := ← Toml.withDefault (·.asEntries Toml.Value.asString) [] fields "charts"
    labels := ← Toml.optional strings fields "expect_labels"
    insertions := ← Toml.optional strings fields "expect_insert"
    notices := ← Toml.optional (·.asList noticeOf) fields "expect_notices" }

def ofToml (text : String) : Option Case := (Toml.parse text).bind ofValue

/-! ## Running -/

def source (c : Case) : Source Unit := Source.ofProvider (Provider.ofCharts c.charts) ()

def text (c : Case) : Document := ⟨c.name, c.document⟩

def isApplicable (c : Case) : Bool := Source.isApplicable c.source.patterns c.name

def response (c : Case) : Response :=
  if c.isApplicable then (c.source.complete c.text c.position false).1 else {}

def events (c : Case) : List Log.Event :=
  if c.isApplicable then c.source.completeEvents c.text c.position false else []

/-! ## Judging -/

def listMismatch (what : String) (expected actual : List String) : Option String :=
  if expected = actual then none
  else some (what ++ " mismatch\n  expected: [" ++ ", ".intercalate expected ++
    "]\n  actual:   [" ++ ", ".intercalate actual ++ "]")

def severityText : Severity → String
  | .warning => "Warning"
  | .error => "Error"

/-- Whether a text occurs in another. -/
def isInfix (part : List Char) : List Char → Bool
  | [] => part.isEmpty
  | c :: cs => part.isPrefixOf (c :: cs) || isInfix part cs

/-- What is wrong with the notices from index `i` on, of which there are as many as expected. -/
def noticeMismatch (i : Nat) : List Notice → List ExpectedNotice → Option String
  | n :: ns, e :: es =>
    if n.severity ≠ e.severity then
      some ("notice[" ++ toString i ++ "]: expected " ++ severityText e.severity ++ ", got " ++
        severityText n.severity)
    -- Messages are quoted in part, so that a case does not depend on their whole wording.
    else if !isInfix e.contains.toList n.message.toList then
      some ("notice[" ++ toString i ++ "]: expected message containing \"" ++ e.contains ++
        "\", got: " ++ n.message)
    else noticeMismatch (i + 1) ns es
  | _, _ => none

def noticesMismatch (actual : List Notice) (expected : List ExpectedNotice) : Option String :=
  if actual.length = expected.length then noticeMismatch 0 actual expected
  else
    let listed := actual.map fun n => "  - " ++ severityText n.severity ++ ": " ++ n.message
    some ("expected " ++ toString expected.length ++ " notice(s), got " ++ toString actual.length ++
      "\n  actual notices:\n" ++ (if listed.isEmpty then "    (none)" else "\n".intercalate listed))

/-- The first expectation that an answer does not meet; none if it meets all. -/
def mismatch (c : Case) (r : Response) : Option String :=
  ((c.labels.bind fun expected => listMismatch "labels" expected (r.items.map Item.label)).or
    (c.insertions.bind fun expected =>
      listMismatch "insert texts" expected (r.items.map Item.insertText))).or
    (c.notices.bind (noticesMismatch r.notices))

end Case

structure Verdict where
  path : String
  description : Option String
  /-- Why the case failed; none if it passed. -/
  failure : Option String
  deriving DecidableEq, Repr

namespace Verdict

def passed (v : Verdict) : Bool := v.failure.isNone

end Verdict

/-- Run the case of a file: the verdict and what was reported on the way. -/
def runFile (files : FileTree) (path : String) : Verdict × List Log.Event :=
  match files.readText path with
  | .error e => (⟨path, none, some ("cannot read file: " ++ e.message)⟩, [])
  | .ok text =>
    match Case.ofToml text with
    | none => (⟨path, none, some "TOML parse error: malformed TOML"⟩, [])
    | some c => (⟨path, c.description, c.mismatch c.response⟩, c.events)

end ChartValues.Suite
