import ChartValues.Log.Event
import ChartValues.Text.Blank
import ChartValues.Text.Word

/-!
# Log filters

Which events are shown. A filter is a list of directives `TARGET=LEVEL`, `TARGET` or `LEVEL` with commas
between them; of the directives whose target an event's own starts with, the one with the longest target
decides.
-/

namespace ChartValues.Log

/-- One rule: events of a target, with these fields, are shown up to a level. -/
structure Directive where
  target : Option String
  fields : List String
  /-- The greatest verbosity that is shown, zero for none. -/
  verbosity : Nat
  deriving DecidableEq, Repr

namespace Directive

/-- How special a directive is. -/
def weight (d : Directive) : Nat × Nat :=
  (match d.target with
    | some t => t.utf8ByteSize + 1
    | none => 0, d.fields.length)

def concerns (d : Directive) (e : Event) : Bool :=
  d.target.all (fun t => t.toList.isPrefixOf e.target.toList) &&
    d.fields.all fun name => name == "message" || e.fields.any (·.1 == name)

end Directive

abbrev Filter := List Directive

inductive FilterError where
  | directive
  | level
  deriving DecidableEq, Repr

def FilterError.message : FilterError → String
  | directive => "invalid filter directive"
  | level => "error parsing level filter: expected one of \"off\", \"error\", \"warn\", \"info\", " ++
      "\"debug\", \"trace\", or a number 0-5"

namespace Filter

def ofLevel (level : Level) : Filter := [⟨none, [], level.verbosity⟩]

/-- The more special of two directives; of two alike, the later one. -/
def prefer (best : Option Directive) (d : Directive) : Option Directive :=
  match best with
  | none => some d
  | some b =>
    let (bt, bf) := b.weight
    let (dt, df) := d.weight
    if bt < dt ∨ bt = dt ∧ bf ≤ df then some d else some b

def shows (f : Filter) (e : Event) : Bool :=
  match (f.filter (·.concerns e)).foldl prefer none with
  | some d => e.level.verbosity ≤ d.verbosity
  | none => false

/-! ## Reading -/

/-- The verbosity that a text names: a word in any case or a number up to five. -/
def verbosity? (s : String) : Option Nat :=
  let digits := match s.toList with
    | '+' :: cs => cs
    | cs => cs
  if !digits.isEmpty && digits.all Char.isDigit then
    let n := digits.foldl (fun n c => n * 10 + (c.toNat - '0'.toNat)) 0
    if n ≤ 5 then some n else none
  else
    match s.map Char.toLower with
    | "off" => some 0
    | "error" => some 1
    | "warn" => some 2
    | "info" => some 3
    | "debug" => some 4
    | "trace" => some 5
    | _ => none

/-- The verbosity behind an equals sign; nothing there stands for everything. -/
def readLevel (cs : List Char) : Except FilterError Nat :=
  if cs.isEmpty then .ok 5
  else
    match verbosity? (String.ofList cs) with
    | some n => .ok n
    | none => .error .level

/-- What stands behind the bracket that closes a span. -/
def readTail (raw : List Char) (target : Option String) (fields : List String) (isStatic : Bool) :
    Except FilterError (Option Directive) :=
  let make (n : Nat) : Option Directive := if isStatic then some ⟨target, fields, n⟩ else none
  match raw with
  | [] => .ok (make 5)
  | '=' :: level => (readLevel level).map make
  | _ => .error .directive

/-- A span in brackets, with its target before it. Nothing ever happens inside a span here, so a
directive that names one shows nothing; one that only asks for a field is an ordinary one. -/
def readSpan (target : Option String) (raw : List Char) : Except FilterError (Option Directive) :=
  let name := raw.takeWhile fun c => c ≠ ']' && c ≠ '\x7b'
  match raw.drop name.length with
  | ']' :: rest => readTail rest target [] false
  | '\x7b' :: rest =>
    let field := rest.takeWhile (· ≠ '\x7d')
    match rest.drop field.length with
    | '\x7d' :: ']' :: rest =>
      if field.isEmpty then .error .directive
      else readTail rest target [String.ofList field] (name.isEmpty && !field.contains '=')
    | _ => .error .directive
  | _ => .error .directive

/-- One directive; `none` if it can never show an event. -/
def readDirective (raw : List Char) : Except FilterError (Option Directive) :=
  match Text.trim raw with
  | [] => .error .directive
  | '[' :: rest => readSpan none rest
  | c :: cs =>
    if !(c == '-' || c == ':' || Text.isWord c) then .error .directive
    else
      let size := ((c :: cs).takeWhile fun d => d ≠ '=' && d ≠ '[').length
      let target := String.ofList (raw.take size)
      match (c :: cs).drop size with
      | '=' :: _ => (readLevel (raw.drop (size + 1))).map fun n => some ⟨some target, [], n⟩
      | '[' :: rest => readSpan (some target) rest
      | _ =>
        match verbosity? (String.ofList raw) with
        | some n => .ok (some ⟨none, [], n⟩)
        | none => .ok (some ⟨some (String.ofList raw), [], 5⟩)

/-- All directives, those that are empty left out. -/
def readAll : List String → Except FilterError (List (Option Directive))
  | [] => .ok []
  | s :: rest =>
    if s.isEmpty then readAll rest
    else do
      let d ← readDirective s.toList
      let ds ← readAll rest
      return d :: ds

/-- The filter that a text writes; one without directives shows errors. -/
def parse (text : String) : Except FilterError Filter := do
  let ds ← readAll (text.splitOn ",")
  return if ds.isEmpty then ofLevel .error else ds.filterMap id

end Filter

end ChartValues.Log
