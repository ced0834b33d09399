import ChartValues.CursorPath
import ChartValues.Tree.Entry

/-!
# Completion candidates

Which entries complete the key at a cursor. The cursor's path has to start with the block's top-level
key; the rest of it selects one level of the tree. Labels are unique: of two entries with one label the
first wins.
-/

namespace ChartValues

/-- An entry offered at a cursor. -/
structure Candidate where
  /-- The last key of the entry's path. -/
  label : String
  insertText : String
  isObject : Bool
  scalarText : Option String
  kind : Option Kind
  /-- The entry's path from the root of the chart's values. -/
  path : List String
  sortKey : SortKey
  deriving DecidableEq, Repr

namespace Candidate

/-- What accepting an entry inserts: the key, and for a scalar its value. -/
def insertion (e : Entry) (label : String) : String :=
  match e.scalarText with
  | some text => if e.isObject then label ++ ":" else label ++ ": " ++ text
  | none => label ++ ":"

def ofEntry (e : Entry) (label : String) : Candidate where
  label := label
  insertText := insertion e label
  isObject := e.isObject
  scalarText := e.scalarText
  kind := e.kind
  path := e.path
  sortKey := e.sortKey

end Candidate

namespace Entry

/-- The label of an entry one level below `parent`: its last key, if the keys before it are
`parent`. -/
def labelBelow (parent : List String) (path : List String) : Option String :=
  match parent, path with
  | [], [label] => some label
  | p :: parent, k :: path => if p = k then labelBelow parent path else none
  | _, _ => none

/-- The candidates of the entries one level below `parent`, leaving out labels in `seen`. -/
def candidatesBelow (parent : List String) (seen : List String) : List Entry → List Candidate
  | [] => []
  | e :: rest =>
    match labelBelow parent e.path with
    | none => candidatesBelow parent seen rest
    | some label =>
      if label ∈ seen then candidatesBelow parent seen rest
      else Candidate.ofEntry e label :: candidatesBelow parent (label :: seen) rest

end Entry

namespace CursorPath

/-- The path relative to the block's key: empty for an empty path, nothing for a path with another
root. -/
def relativeTo (p : CursorPath) (topKey : String) : Option (List String) :=
  match p.elements with
  | [] => some []
  | root :: rest => if root = topKey then some rest else none

end CursorPath

/-- The entries that complete the key at `path` inside the block of `topKey`. -/
def candidates (entries : List Entry) (path : CursorPath) (topKey : String) : List Candidate :=
  match path.relativeTo topKey with
  | none => []
  | some parent => Entry.candidatesBelow parent [] entries

def candidateEvents (entries : List Entry) (path : CursorPath) (topKey : String) :
    List Log.Event :=
  match path.relativeTo topKey with
  | none =>
    [⟨.debug, "completion::filter", "cursor path is outside the block",
      [("root", .quoted (path.first?.getD "")), ("top_key", .quoted topKey)]⟩]
  | some parent =>
    [⟨.debug, "completion::filter", "filtered entries against cursor path",
      [("depth", .number parent.length),
        ("candidates", .number (candidates entries path topKey).length)]⟩]

end ChartValues
