import ChartValues.Document.Basic
import ChartValues.Document.Line
import ChartValues.Log.Event

/-!
# The path at a cursor

The chain of keys that encloses a cursor, rebuilt from indentation alone: walking up from the cursor's
line, a `key:` line is taken whenever it is indented less than the last one taken, until a key at
column zero. A key being typed on the cursor's line is kept apart.
-/

namespace ChartValues

/-- The keys that enclose a cursor, outermost first. -/
structure CursorPath where
  /-- Keys of the lines above, each followed by a colon. -/
  segments : List String
  /-- The key being typed. -/
  inProgress : Option String
  deriving DecidableEq, Repr

namespace CursorPath

/-- All keys, the one being typed last. -/
def elements (p : CursorPath) : List String := p.segments ++ p.inProgress.toList

/-- The outermost key. -/
def first? (p : CursorPath) : Option String := p.elements.head?

def length (p : CursorPath) : Nat := p.elements.length

/-- The path as text: keys divided by dots, the one being typed marked by an ellipsis. -/
def render (p : CursorPath) : String :=
  ".".intercalate (p.segments ++ (p.inProgress.map (· ++ "…")).toList)

/-- Walk through the lines above the cursor, nearest first, taking the keys of lines indented less
than `depth`. The result has the nearest key first. -/
def climb (depth : Nat) : List String → List String
  | [] => []
  | text :: above =>
    if Line.isBlankOrComment text || depth ≤ Line.indentation text then climb depth above
    else
      match Line.key text with
      | none => climb depth above
      | some key =>
        if Line.indentation text = 0 then [key]
        else key :: climb (Line.indentation text) above

end CursorPath

/-- The lines strictly above a position, nearest first. -/
def Document.above (d : Document) (p : Position) : List String :=
  ((d.lines.take (p.line - 1)).map Line.text).reverse

/-- The keys that enclose a cursor whose line reads `typed` up to the cursor. -/
def CursorPath.enclosing (typed : String) (above : List String) : CursorPath where
  segments :=
    let depth := Line.indentation typed
    if depth = 0 then [] else (climb depth above).reverse
  inProgress := Line.bareKey typed

def Document.pathAt (d : Document) (p : Position) : Except PositionError CursorPath :=
  (d.prefixAt p).map fun typed => CursorPath.enclosing typed (d.above p)

def Document.pathEvents (d : Document) (p : Position) : List Log.Event :=
  match d.pathAt p with
  | .error _ => []
  | .ok path =>
    [⟨.debug, "valuesdoc::path", "resolved cursor path",
      [("line", .number p.line), ("column", .number p.column), ("path", .text path.render)]⟩]

end ChartValues
