import ChartValues.Toml.Value

/-!
# Tables under construction

A TOML text builds its tables piece by piece: headers open tables, dotted keys make tables on their
way, and double brackets append to arrays of tables. A table remembers how it came to be, because a
table that has been written out must not be opened or extended a second time.
-/

namespace ChartValues.Toml

/-- A node of the tables under construction. -/
inductive Node where
  /-- A value written out, inline tables included. -/
  | value (v : Value)
  /-- A table; `implicit` if only named on the way to another, `dotted` if made by a dotted key. -/
  | table (implicit dotted : Bool) (entries : List (String × Node))
  /-- An array of tables. -/
  | tables (elements : List (List (String × Node)))
  deriving Repr, Inhabited

namespace Node

mutual

def toValue : Node → Value
  | value v => v
  | table _ _ entries => .table (entriesToValues entries)
  | tables elements => .array (elementsToValues elements)

def entriesToValues : List (String × Node) → List (String × Value)
  | [] => []
  | (k, n) :: rest => (k, toValue n) :: entriesToValues rest

def elementsToValues : List (List (String × Node)) → List Value
  | [] => []
  | entries :: rest => .table (entriesToValues entries) :: elementsToValues rest

end

end Node

abbrev Entries := List (String × Node)

namespace Entries

def get? (key : String) : Entries → Option Node
  | [] => none
  | (k, n) :: rest => if k = key then some n else get? key rest

def set (key : String) (node : Node) : Entries → Entries
  | [] => [(key, node)]
  | (k, n) :: rest => if k = key then (k, node) :: rest else (k, n) :: set key node rest

/-- Change the last of several tables. -/
def mapLast (f : Entries → Option Entries) : List Entries → Option (List Entries)
  | [] => none
  | [last] => (f last).map ([·])
  | first :: rest => (mapLast f rest).map (first :: ·)

/-- Change the table that a path leads to, making the tables that are missing. `f` is told whether the
table was made by a dotted key; `dotted` says whether the path is one. -/
def update (dotted : Bool) (f : Bool → Entries → Option Entries) :
    (isDotted : Bool) → (path : List String) → Entries → Option Entries
  | isDotted, [], entries => f isDotted entries
  | _, key :: rest, entries =>
    match get? key entries with
    | none => (update dotted f dotted rest []).map fun inner =>
        set key (.table true dotted inner) entries
    | some (.value _) => none
    | some (.tables elements) =>
      (mapLast (update dotted f false rest) elements).map fun elements =>
        set key (.tables elements) entries
    | some (.table implicit isDotted inner) =>
      if dotted && !implicit then none
      else (update dotted f isDotted rest inner).map fun inner =>
        set key (.table implicit isDotted inner) entries

/-- Add a value under a dotted key. The table it goes to must have been made the same way, and the key
must be new. -/
def insert (path : List String) (key : String) (v : Value) (entries : Entries) : Option Entries :=
  let put (isDotted : Bool) (inner : Entries) : Option Entries :=
    if isDotted = path.isEmpty then none
    else
      match get? key inner with
      | some _ => none
      | none => some (inner ++ [(key, .value v)])
  update true put false path entries

/-- What a header finds at its path: nothing yet, or a table that was only named on the way. -/
def opened : (path : List String) → Entries → Option Entries
  | [], entries => some entries
  | [key], entries =>
    match get? key entries with
    | none => some []
    | some (.table true false inner) => some inner
    | some _ => none
  | key :: rest, entries =>
    match get? key entries with
    | none => some []
    | some (.value _) => none
    | some (.tables elements) =>
      match elements.getLast? with
      | some last => opened rest last
      | none => none
    | some (.table _ _ inner) => opened rest inner

/-- Put a finished table under a header's path. -/
def close (path : List String) (key : String) (table : Entries) (entries : Entries) :
    Option Entries :=
  update false (fun _ inner => some (set key (.table false false table) inner)) false path entries

/-- Append a finished table to the array under a header's path. -/
def append (path : List String) (key : String) (table : Entries) (entries : Entries) :
    Option Entries :=
  let push (_ : Bool) (inner : Entries) : Option Entries :=
    match get? key inner with
    | none => some (set key (.tables [table]) inner)
    | some (.tables elements) => some (set key (.tables (elements ++ [table])) inner)
    | some _ => none
  update false push false path entries

end Entries

end ChartValues.Toml
