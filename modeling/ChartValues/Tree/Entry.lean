import ChartValues.Tree.Basic

/-!
# Entries of a values tree

Flattening lists every node below the root with its path. Children are numbered before their object,
so that the numbers follow post-order; the list itself has all objects first, then all scalars, each
group by number.
-/

namespace ChartValues

/-- The place of an entry in the list: objects before scalars, then by number. -/
structure SortKey where
  /-- 0 for objects, 1 for scalars. -/
  rank : Nat
  /-- The number of entries emitted before this one. -/
  sequence : Nat
  deriving DecidableEq, Repr

namespace SortKey

/-- A decimal numeral filled with zeros on the left to six digits. -/
def sixDigits (n : Nat) : String :=
  let digits := toString n
  String.ofList (List.replicate (6 - digits.length) '0') ++ digits

/-- The key as a text that a host can sort by. -/
def text (k : SortKey) : String := toString k.rank ++ sixDigits k.sequence

def le (a b : SortKey) : Bool :=
  a.rank < b.rank || (a.rank == b.rank && a.sequence ≤ b.sequence)

end SortKey

/-- One node below the root of a tree. -/
structure Entry where
  path : List String
  isObject : Bool
  scalarText : Option String
  kind : Option Kind
  sortKey : SortKey
  deriving DecidableEq, Repr

namespace Entry

def key (e : Entry) : String := e.path.getLast?.getD ""

def dotted (e : Entry) : String := ".".intercalate e.path

/-- The entry of a node: its number is the count of entries before it. -/
def ofNode (path : List String) (node : Tree) (sequence : Nat) : Entry where
  path := path
  isObject := node.isObject
  scalarText := node.text?
  kind := node.kind?
  sortKey := ⟨if node.isObject then 0 else 1, sequence⟩

end Entry

namespace Tree

mutual

/-- The entries at and below a node whose path is `path`, in post-order, the first one numbered
`start`. -/
def entriesAt (path : List String) (start : Nat) : Tree → List Entry
  | scalar text kind => [Entry.ofNode path (scalar text kind) start]
  | object fields =>
    let below := entriesOf path start fields
    below ++ [Entry.ofNode path (object fields) (start + below.length)]

def entriesOf (path : List String) (start : Nat) : List (String × Tree) → List Entry
  | [] => []
  | (key, child) :: rest =>
    let first := entriesAt (path ++ [key]) start child
    first ++ entriesOf path (start + first.length) rest

end

/-- Every node below the root, objects first. A scalar has none. -/
def flatten : Tree → List Entry
  | scalar _ _ => []
  | object fields => (entriesOf [] 0 fields).mergeSort fun a b => a.sortKey.le b.sortKey

end Tree

end ChartValues
